import InferenceControlPlane.Sli.AtomicSave
import InferenceControlPlane.Python.JsonDocument

/-!
# The checkpoint item

`DynamoDbCheckpointStore` by the requests that it sends. A checkpoint is an item of typed
texts: the version in decimal, the watermark as it is formatted and the seen map as JSON.
On a table that answers, the store is the store of one item with a version.
-/
namespace InferenceControlPlane.Sli
open Python JsonText

/-- A typed value of an item: its tag with its text. -/
inductive AttributeValue where
  | S (text : String)
  | N (text : String)
  deriving DecidableEq

namespace AttributeValue

/-- `value.get("S")`. -/
def text? : AttributeValue → Option String
  | S text => some text
  | N _ => none

/-- `value.get("N")`. -/
def number? : AttributeValue → Option String
  | S _ => none
  | N text => some text

end AttributeValue

abbrev Item := Dict String AttributeValue

/-- The items by table and partition key. -/
abbrev Tables := String × String → Option Item

/-! ## Requests -/

/-- The arguments of `put_item`. -/
structure PutItem where
  tableName : String
  item : Item
  conditionExpression : Option String
  expressionAttributeValues : Option (Dict String AttributeValue)

namespace PutItem

/-- The table and the partition key that a request writes to. -/
def key (request : PutItem) : String × String :=
  (request.tableName, ((request.item.get? "job_id").bind AttributeValue.text?).getD "")

/-- The condition of a request on the item that is there. -/
def holds (request : PutItem) (existing : Option Item) : Bool :=
  if request.conditionExpression = some "attribute_not_exists(job_id)" then existing.isNone
  else if request.conditionExpression = some "version = :expected" then
    existing.any fun item =>
      item.get? "version" == request.expressionAttributeValues.bind (·.get? ":expected")
  else true

/-- `FakeDynamo.put_item`: the item is replaced where the condition holds. -/
def write (request : PutItem) (tables : Tables) : Tables :=
  if request.holds (tables request.key) then
    Function.update tables request.key (some request.item)
  else tables

end PutItem

/-- What the boto3 client raises: the error code of the response, if it has one. -/
structure ClientError where
  code : Option String
  exception : PyErr
  deriving DecidableEq

/-- What `Boto3DynamoClient.put_item` raises: a refused condition is told apart from every other
failure. -/
inductive PutError where
  | conditionalCheckFailed
  | failed (e : PyErr)
  deriving DecidableEq

/-- The `except` clause of `Boto3DynamoClient.put_item`: the one code that means a lost race
becomes an exception of its own. -/
def ClientError.translate (error : ClientError) : PutError :=
  if error.code = some "ConditionalCheckFailedException" then .conditionalCheckFailed
  else .failed error.exception

/-- The answer of the service to a request whose condition does not hold. -/
def refusal : ClientError :=
  ⟨some "ConditionalCheckFailedException", .raised "ConditionalCheckFailedException"⟩

/-! ## The store -/

/-- A checkpoint as `load` builds it; the type of the seen map is not checked. -/
structure LoadedItem where
  watermark : Option DateTime
  seen : Json

/-- The loaded checkpoint is the given one. Dictionaries are equal whatever their order. -/
def LoadedItem.Is (loaded : LoadedItem) (cp : Checkpoint) : Prop :=
  loaded.watermark = cp.watermark ∧ ∃ fields, loaded.seen = .obj fields ∧
    fields.Perm (cp.seen.entries.map fun e => (e.1, .str e.2))

structure DynamoDbCheckpointStore where
  table : String
  jobId : String
  version : ℤ
  deriving DecidableEq

namespace DynamoDbCheckpointStore

def key (store : DynamoDbCheckpointStore) : String × String := (store.table, store.jobId)

/-- `item.get(name, {}).get("S")`. -/
def textOf (item : Item) (name : String) : Option String :=
  (item.get? name).bind AttributeValue.text?

/-- The item of a document. -/
def itemOf (jobId versionText : String) (doc : StoredCheckpoint) : Item :=
  let item := ((Dict.empty.set "job_id" (.S jobId)).set "version" (.N versionText)).set "seen"
    (.S (String.ofList (seenText doc.seen)))
  match doc.watermark with
  | none => item
  | some watermark => item.set "watermark" (.S watermark)

/-- The item of the table for the item of the model. -/
def encode (jobId : String) (it : DynamoItem) : Item :=
  itemOf jobId (toString (it.version : ℤ)) it.doc

lemma itemOf_jobId (jobId versionText : String) (doc : StoredCheckpoint) :
    (itemOf jobId versionText doc).get? "job_id" = some (.S jobId) := by
  rw [itemOf]
  cases doc.watermark <;> simp

lemma itemOf_version (jobId versionText : String) (doc : StoredCheckpoint) :
    (itemOf jobId versionText doc).get? "version" = some (.N versionText) := by
  rw [itemOf]
  cases doc.watermark <;> simp

lemma itemOf_seen (jobId versionText : String) (doc : StoredCheckpoint) :
    (itemOf jobId versionText doc).get? "seen" =
      some (.S (String.ofList (seenText doc.seen))) := by
  rw [itemOf]
  cases doc.watermark <;> simp

lemma itemOf_watermark (jobId versionText : String) (doc : StoredCheckpoint) :
    (itemOf jobId versionText doc).get? "watermark" = doc.watermark.map .S := by
  rw [itemOf]
  cases doc.watermark <;> simp

lemma itemOf_truthy (jobId versionText : String) (doc : StoredCheckpoint) :
    (itemOf jobId versionText doc).entries.isEmpty = false := by
  have h := itemOf_jobId jobId versionText doc
  cases hentries : (itemOf jobId versionText doc).entries with
  | nil =>
    rw [Dict.get?, hentries] at h
    cases h
  | cons e es => rfl

/-- The rest of `save`, once `put_item` has returned or raised: a write advances the version that
the store knows, and a refused condition is a conflict. -/
def conclude (store : DynamoDbCheckpointStore) :
    Except PutError Unit → Except SaveError Unit × DynamoDbCheckpointStore
  | .ok () => (.ok (), { store with version := store.version + 1 })
  | .error .conditionalCheckFailed => (.error .conflict, store)
  | .error (.failed e) => (.error (.failed e), store)

/-- What `put_item` returns on a table that answers: the request is refused where its condition
does not hold of the item there. -/
def answerOf (request : PutItem) (tables : Tables) : Except PutError Unit :=
  if request.holds (tables request.key) then .ok () else .error refusal.translate

section
variable [Runtime]

/-- `int(item["version"]["N"])`: DynamoDB hands numbers over as texts, which are parsed again. -/
def versionOf (item : Item) : Except PyErr ℤ :=
  match (item.get? "version").bind AttributeValue.number? with
  | none => .error .keyError
  | some text => toInt (.str text)

/-- The checkpoint of an item. -/
def decode (item : Item) : Except PyErr LoadedItem := do
  let seen ← match textOf item "seen" with
    | none => .ok (.obj [])
    | some text => if text = "" then .ok (.obj []) else loads text.toList
  let watermark ← parseTs (((textOf item "watermark").map Json.str).getD .null)
  return ⟨watermark, seen⟩

/-- `load`, with the item that `get_item` answered. The version is noted before the rest
of the item is read. -/
def load (store : DynamoDbCheckpointStore) (answer : Option Item) :
    Except PyErr (Option LoadedItem) × DynamoDbCheckpointStore :=
  match answer.filter fun item => !item.entries.isEmpty with
  | none => (.ok none, { store with version := 0 })
  | some item =>
    match versionOf item with
    | .error e => (.error e, store)
    | .ok version => ((decode item).map some, { store with version })

/-- The request of `save`. -/
def request (store : DynamoDbCheckpointStore) (cp : Checkpoint) : Except PyErr PutItem := do
  let newVersion ← toStr (.int (store.version + 1))
  let item := itemOf store.jobId newVersion cp.stored
  if store.version = 0 then
    return ⟨store.table, item, some "attribute_not_exists(job_id)", none⟩
  else
    let expected ← toStr (.int store.version)
    return ⟨store.table, item, some "version = :expected",
      some (Dict.empty.set ":expected" (.N expected))⟩

/-- `save` on a table that answers. -/
def save (store : DynamoDbCheckpointStore) (cp : Checkpoint) (tables : Tables) :
    (Except SaveError Unit × DynamoDbCheckpointStore) × Tables :=
  match store.request cp with
  | .error e => ((.error (.failed e), store), tables)
  | .ok request => (store.conclude (answerOf request tables), request.write tables)

/-! ## The store of one item -/

/-- `int(str(n))` is `n`. -/
def ReadsNaturals : Prop :=
  ∀ (n : ℕ) (text : String), toStr (.int n) = .ok text → Runtime.intOfText text = some (n : ℤ)

/-- What is read from the item of a checkpoint is the checkpoint, where its watermark is none or
in UTC. -/
theorem decode_itemOf {cp : Checkpoint} (hutc : ∀ d, cp.watermark = some d → d.IsUtc)
    (jobId versionText : String) :
    ∃ loaded, decode (itemOf jobId versionText cp.stored) = .ok loaded ∧ loaded.Is cp := by
  have hseen : textOf (itemOf jobId versionText cp.stored) "seen" =
      some (String.ofList (seenText cp.seen)) := by
    rw [textOf, itemOf_seen]
    rfl
  have hwatermark : textOf (itemOf jobId versionText cp.stored) "watermark" =
      cp.watermark.map DateTime.isoformat := by
    rw [textOf, itemOf_watermark]
    cases hw : cp.watermark <;> simp [Checkpoint.stored, hw, AttributeValue.text?]
  have hparse : parseTs (((cp.watermark.map DateTime.isoformat).map Json.str).getD .null) =
      .ok cp.watermark := by
    cases hw : cp.watermark with
    | none => rfl
    | some d => exact parseTs_isoformat_utc (hutc d hw)
  have hne : String.ofList (seenText cp.seen) ≠ "" := by
    intro h
    have hlist := congrArg String.toList h
    rw [String.toList_ofList, seenText, encodeObject] at hlist
    cases hlist
  have hloads := (reads_seenText cp.seen).loads
  have hperm : (sortKeys cp.seen.entries).Perm cp.seen.entries := List.perm_insertionSort ..
  let fields := (sortKeys cp.seen.entries).map fun e => (e.1, Json.str e.2)
  refine ⟨⟨cp.watermark, .obj fields⟩, ?_, rfl, fields, rfl, hperm.map _⟩
  rw [decode, hseen, hwatermark, hparse]
  simp only [if_neg hne, String.toList_ofList, hloads]
  rfl

lemma toStr_natCast {n : ℕ} {text : String} (h : toStr (.int n) = .ok text) :
    text = toString (n : ℤ) := by
  rw [toStr] at h
  split_ifs at h
  exact (Except.ok.inj h).symm

omit [Runtime] in
lemma toList_toString_natCast (n : ℕ) : (toString (n : ℤ)).toList = Nat.toDigits 10 n := by
  rw [← text_ofInt]
  have hsign : ¬ (n : ℤ) < 0 := by omega
  simp [Numeral.text, Numeral.ofInt, hsign]

omit [Runtime] in
/-- The decimal text of a natural number determines it. -/
lemma toString_natCast_inj {m n : ℕ} : toString (m : ℤ) = toString (n : ℤ) ↔ m = n := by
  constructor
  · intro h
    have hdigits := congrArg String.toList h
    rw [toList_toString_natCast, toList_toString_natCast] at hdigits
    rw [← numeral_toDigits m, hdigits, numeral_toDigits]
  · exact fun h => by rw [h]

section Request
variable {store : DynamoDbCheckpointStore} {cp : Checkpoint} {request : PutItem} {n : ℕ}

/-- What a save sends from version `n`: the next version of the item, on the condition that
version `n` is still the current one, or that there is no item yet. -/
structure Sends (store : DynamoDbCheckpointStore) (n : ℕ) (cp : Checkpoint)
    (request : PutItem) : Prop where
  table : request.tableName = store.table
  item : request.item = encode store.jobId ⟨n + 1, cp.stored⟩
  first : n = 0 → request.conditionExpression = some "attribute_not_exists(job_id)"
  next : n ≠ 0 → request.conditionExpression = some "version = :expected" ∧
    request.expressionAttributeValues.bind (·.get? ":expected") = some (.N (toString (n : ℤ)))
  writable : ∃ text, toStr (.int ((n + 1 : ℕ) : ℤ)) = .ok text

theorem sends_of_request (hversion : store.version = n) (h : store.request cp = .ok request) :
    Sends store n cp request := by
  obtain ⟨newVersion, hnew, h⟩ := bind_eq_ok h
  rw [hversion, ← Nat.cast_succ] at hnew
  by_cases hzero : n = 0
  · rw [if_pos (by omega)] at h
    cases h
    exact ⟨rfl, by rw [toStr_natCast hnew]; rfl, fun _ => rfl, fun h => absurd hzero h,
      newVersion, hnew⟩
  · rw [if_neg (by omega)] at h
    obtain ⟨expected, hexpected, h⟩ := bind_eq_ok h
    cases h
    rw [hversion] at hexpected
    refine ⟨rfl, by rw [toStr_natCast hnew]; rfl, fun h => absurd h hzero, fun _ => ⟨rfl, ?_⟩,
      newVersion, hnew⟩
    rw [toStr_natCast hexpected]
    exact Dict.get?_set _ _ _ _

/-- A store that has not loaded can send. -/
lemma request_of_fresh (store : DynamoDbCheckpointStore) (cp : Checkpoint)
    (h : store.version = 0) : ∃ request, store.request cp = .ok request := by
  have hone : toStr (.int (store.version + 1)) = .ok (toString (1 : ℤ)) := by
    have hsmall : ¬ 10 ^ maxStrDigits ≤ (1 : ℤ).natAbs := by
      have hlarge : 1 < 10 ^ maxStrDigits := Nat.one_lt_pow (by decide) (by decide)
      exact not_le.mpr hlarge
    rw [h, zero_add, toStr, if_neg hsmall]
  unfold DynamoDbCheckpointStore.request
  rw [hone, ok_bind]
  simp only [h, if_true]
  exact ⟨_, rfl⟩

omit [Runtime] in
lemma key_eq_of_item {versionText : String} {doc : StoredCheckpoint}
    (htable : request.tableName = store.table)
    (hitem : request.item = itemOf store.jobId versionText doc) : request.key = store.key := by
  rw [PutItem.key, htable, hitem, itemOf_jobId]
  rfl

lemma Sends.key (h : Sends store n cp request) : request.key = store.key :=
  key_eq_of_item h.table h.item

/-- The condition of a save is that of the store of one item. -/
lemma Sends.holds (h : Sends store n cp request) (it : Option DynamoItem) :
    request.holds (it.map (encode store.jobId)) = DynamoState.condition ⟨it, n⟩ := by
  have hother : some "version = :expected" ≠ some "attribute_not_exists(job_id)" := by decide
  by_cases hzero : n = 0
  · rw [PutItem.holds, if_pos (h.first hzero), DynamoState.condition]
    cases it <;> simp [hzero]
  · obtain ⟨hcondition, hvalue⟩ := h.next hzero
    rw [PutItem.holds, hcondition, if_neg hother, if_pos rfl, hvalue, DynamoState.condition]
    cases it with
    | none => simp [hzero]
    | some it =>
      have hversion : (encode store.jobId it).get? "version" =
          some (.N (toString (it.version : ℤ))) := itemOf_version _ _ _
      rw [Option.map_some, Option.any_some, hversion, Bool.eq_iff_iff]
      simp only [hzero, bne_iff_ne, beq_iff_eq, Option.some.injEq, AttributeValue.N.injEq,
        Bool.and_eq_true, ne_eq, not_false_eq_true, true_and]
      exact toString_natCast_inj

end Request

/-- A load notes the version of the item and decodes the rest. -/
lemma load_encode (hint : ReadsNaturals) (store : DynamoDbCheckpointStore) {it : DynamoItem}
    {text : String} (htext : toStr (.int it.version) = .ok text) :
    store.load (some (encode store.jobId it)) =
      ((decode (encode store.jobId it)).map some, { store with version := it.version }) := by
  have hfilter : (some (encode store.jobId it)).filter (fun item => !item.entries.isEmpty) =
      some (encode store.jobId it) := by
    have htruthy : (encode store.jobId it).entries.isEmpty = false := itemOf_truthy _ _ _
    simp [Option.filter, htruthy]
  have hversion : versionOf (encode store.jobId it) = .ok it.version := by
    have hnumber : ((encode store.jobId it).get? "version").bind AttributeValue.number? =
        some text := by
      rw [toStr_natCast htext, encode, itemOf_version]
      rfl
    rw [versionOf, hnumber]
    simp only [toInt, hint _ _ htext]
  rw [load, hfilter]
  simp only [hversion]

/-! ## Refinement -/

/-- On a table that answers, a save is that of the store of one item: attributes and expressions
come to a version and a document. -/
theorem save_refines {store : DynamoDbCheckpointStore} {cp : Checkpoint} {request : PutItem}
    {n : ℕ} {it : Option DynamoItem} {tables : Tables} (hversion : store.version = n)
    (htables : tables store.key = it.map (encode store.jobId))
    (h : store.request cp = .ok request) :
    (store.save cp tables).1 = ((DynamoState.save ⟨it, n⟩ cp).1,
      { store with version := (DynamoState.save ⟨it, n⟩ cp).2.version }) ∧
    (store.save cp tables).2 = Function.update tables store.key
      ((DynamoState.save ⟨it, n⟩ cp).2.item.map (encode store.jobId)) := by
  have hsends := sends_of_request hversion h
  have hholds : request.holds (tables request.key) = DynamoState.condition ⟨it, n⟩ := by
    rw [hsends.key, htables, hsends.holds]
  have hsave : store.save cp tables =
      (store.conclude (answerOf request tables), request.write tables) := by
    unfold save
    simp only [h]
  rw [hsave]
  simp only [answerOf, PutItem.write, hholds, DynamoState.save]
  cases DynamoState.condition ⟨it, n⟩ with
  | true =>
    simp only [if_true, hsends.key, hsends.item]
    refine ⟨?_, rfl⟩
    rw [conclude, hversion, Nat.cast_succ]
  | false =>
    simp only [Bool.false_eq_true, if_false]
    have hstore : { store with version := (n : ℤ) } = store := by rw [← hversion]
    refine ⟨?_, ?_⟩
    · rw [hstore]
      rfl
    · rw [← htables, Function.update_eq_self]

end

end DynamoDbCheckpointStore
end InferenceControlPlane.Sli
