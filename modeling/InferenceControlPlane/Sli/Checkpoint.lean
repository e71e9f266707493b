import InferenceControlPlane.Python.Dict
import InferenceControlPlane.Sli.Models

/-!
# Checkpoints

The watermark is the end of the last exported window; the seen map holds the ids
whose end lies in the trailing overlap. Two stores share one interface: a local
JSON file and a DynamoDB item with an optimistic version.
-/
namespace InferenceControlPlane.Sli
open Python

structure Checkpoint where
  watermark : Option DateTime
  seen : Dict String String

/-- `(id, end)` survives when the id is not blank and the end reaches the cutoff. -/
def keepPrior [Runtime] (cutoff : DateTime) (oid endIso : String) : Except PyErr Bool :=
  match parseTs (.str endIso) with
  | .ok (some endTime) => .ok (oid != "" && cutoff.instant ≤ endTime.instant)
  | .ok none => .ok false
  | .error .valueError => .ok false
  | .error .typeError => .ok false
  | .error .attributeError => .ok false
  | .error e => .error e

/-- The entries for which the test holds; the first test to raise ends it. -/
def keepEntries {α : Type} (test : α → Except PyErr Bool) : List α → Except PyErr (List α)
  | [] => .ok []
  | e :: es => do
    let keep ← test e
    let rest ← keepEntries test es
    return if keep then e :: rest else rest

/-- `prune_seen`: of the prior and the current ids, those whose observation ends at the cutoff or
later, with the ends as ISO text. -/
def pruneSeen [Runtime] (prior : Dict String String) (current : List (String × DateTime))
    (cutoff : DateTime) : Except PyErr (Dict String String) := do
  let kept ← keepEntries (fun e => keepPrior cutoff e.1 e.2) prior.entries
  let fresh := current.filter fun e => e.1 != "" && cutoff.instant ≤ e.2.instant
  return (Dict.ofList kept).update (fresh.map fun e => (e.1, e.2.isoformat))

theorem mem_keepEntries {α : Type} {test : α → Except PyErr Bool} {es kept : List α}
    (h : keepEntries test es = .ok kept) (e : α) : e ∈ kept ↔ e ∈ es ∧ test e = .ok true := by
  induction es generalizing kept with
  | nil =>
    cases h
    simp
  | cons a es ih =>
    obtain ⟨keep, hkeep, h⟩ := bind_eq_ok h
    obtain ⟨rest, hrest, h⟩ := bind_eq_ok h
    cases h
    have hih := ih hrest
    cases keep
    · simp only [Bool.false_eq_true, if_false, hih, List.mem_cons]
      constructor
      · exact fun ⟨h1, h2⟩ => ⟨Or.inr h1, h2⟩
      · rintro ⟨rfl | h1, h2⟩
        · rw [hkeep] at h2
          cases h2
        · exact ⟨h1, h2⟩
    · simp only [if_true, List.mem_cons, hih]
      constructor
      · rintro (rfl | ⟨h1, h2⟩)
        · exact ⟨Or.inl rfl, hkeep⟩
        · exact ⟨Or.inr h1, h2⟩
      · rintro ⟨rfl | h1, h2⟩
        · exact Or.inl rfl
        · exact Or.inr ⟨h1, h2⟩

/-- What is kept is what passes the test, in order. -/
theorem keepEntries_ok {α : Type} {test : α → Except PyErr Bool} {es kept : List α}
    (h : keepEntries test es = .ok kept) :
    (∀ e ∈ es, ∃ keep, test e = .ok keep) ∧
      kept = es.filter fun e => (test e).toOption == some true := by
  induction es generalizing kept with
  | nil =>
    cases h
    exact ⟨by simp, rfl⟩
  | cons a es ih =>
    obtain ⟨keep, hkeep, h⟩ := bind_eq_ok h
    obtain ⟨rest, hrest, h⟩ := bind_eq_ok h
    cases h
    obtain ⟨hall, rfl⟩ := ih hrest
    refine ⟨List.forall_mem_cons.mpr ⟨⟨keep, hkeep⟩, hall⟩, ?_⟩
    rw [List.filter_cons, hkeep]
    cases keep <;> rfl

theorem keepEntries_error {α : Type} {test : α → Except PyErr Bool} {es : List α} {e : PyErr}
    (h : keepEntries test es = .error e) : ∃ a ∈ es, test a = .error e := by
  induction es with
  | nil => cases h
  | cons a es ih =>
    cases hkeep : test a with
    | error e' =>
      simp only [keepEntries, hkeep] at h
      cases h
      exact ⟨a, List.mem_cons_self, hkeep⟩
    | ok keep =>
      cases hrest : keepEntries test es with
      | error e' =>
        simp only [keepEntries, hkeep, hrest] at h
        cases h
        exact (ih hrest).imp fun b hb => ⟨List.mem_cons_of_mem _ hb.1, hb.2⟩
      | ok rest =>
        simp only [keepEntries, hkeep, hrest] at h
        cases h

/-- A recorded end in UTC passes the test when it reaches the cutoff. -/
lemma keepPrior_isoformat [Runtime] {cutoff d : DateTime} {id : String} (hid : id ≠ "")
    (hd : d.IsUtc) : keepPrior cutoff id d.isoformat = .ok true ↔ cutoff.instant ≤ d.instant := by
  simp [keepPrior, parseTs_isoformat_utc hd, hid]

section Prune
variable [Runtime] {prior out : Dict String String} {current : List (String × DateTime)}
  {cutoff : DateTime}

/-- Ids of this window whose end reaches the cutoff are kept, as the next window reads them
again. -/
theorem pruneSeen_current (h : pruneSeen prior current cutoff = .ok out) {oid : String}
    {endTime : DateTime} (hm : (oid, endTime) ∈ current) (hid : oid ≠ "")
    (hend : cutoff.instant ≤ endTime.instant) : oid ∈ out := by
  obtain ⟨kept, _, h⟩ := bind_eq_ok h
  cases h
  rw [Dict.mem_update]
  refine Or.inl (List.mem_map.mpr ⟨(oid, endTime.isoformat), ?_, rfl⟩)
  refine List.mem_map.mpr ⟨(oid, endTime), List.mem_filter.mpr ⟨hm, ?_⟩, rfl⟩
  simp [hid, hend]

/-- Prior ids whose recorded end reaches the cutoff are kept, with the end that was recorded for
them. -/
theorem pruneSeen_prior (h : pruneSeen prior current cutoff = .ok out) {oid endIso : String}
    (hm : prior.get? oid = some endIso) (hkeep : keepPrior cutoff oid endIso = .ok true) :
    oid ∈ out := by
  obtain ⟨kept, hk, h⟩ := bind_eq_ok h
  cases h
  rw [Dict.mem_update, Dict.ofList, Dict.mem_update]
  refine Or.inr (Or.inl (List.mem_map.mpr ⟨(oid, endIso), ?_, rfl⟩))
  exact (mem_keepEntries hk _).mpr ⟨Dict.mem_entries.mpr hm, hkeep⟩

/-- Nothing else is kept, and the recorded ends do not change: what is seen comes from this window
or from the last checkpoint. -/
theorem pruneSeen_get? (h : pruneSeen prior current cutoff = .ok out) {oid endIso : String}
    (hm : out.get? oid = some endIso) :
    (∃ endTime, (oid, endTime) ∈ current ∧ cutoff.instant ≤ endTime.instant ∧
      endIso = endTime.isoformat) ∨
        prior.get? oid = some endIso ∧ keepPrior cutoff oid endIso = .ok true := by
  obtain ⟨kept, hk, h⟩ := bind_eq_ok h
  cases h
  rcases Dict.mem_of_get?_update hm with hm | hm
  · obtain ⟨⟨i, endTime⟩, hi, heq⟩ := List.mem_map.mp hm
    cases heq
    obtain ⟨hi, hkeep⟩ := List.mem_filter.mp hi
    simp only [Bool.and_eq_true, decide_eq_true_eq] at hkeep
    exact Or.inl ⟨endTime, hi, hkeep.2, rfl⟩
  · rcases Dict.mem_of_get?_update hm with hm | hm
    · obtain ⟨hi, hkeep⟩ := (mem_keepEntries hk _).mp hm
      exact Or.inr ⟨Dict.mem_entries.mp hi, hkeep⟩
    · simp at hm

end Prune

/-! ## Stores -/

/-- How `save` fails: another writer has won, or anything else. The pipeline reports the first,
and raises the second. -/
inductive SaveError where
  | conflict
  | failed (e : PyErr)
  deriving DecidableEq

/-- A checkpoint as both stores write it, with the watermark as ISO text and the seen ids with the
ends of their observations. -/
structure StoredCheckpoint where
  watermark : Option String
  seen : Dict String String
  deriving DecidableEq

def Checkpoint.stored (cp : Checkpoint) : StoredCheckpoint :=
  ⟨cp.watermark.map DateTime.isoformat, cp.seen⟩

def StoredCheckpoint.read [Runtime] (doc : StoredCheckpoint) : Except PyErr Checkpoint := do
  let watermark ← match doc.watermark with
    | none => .ok none
    | some text => parseTs (.str text)
  return ⟨watermark, doc.seen⟩

/-- Reading what is persisted, if it is readable and there is anything. -/
def readStored [Runtime] :
    Except PyErr (Option StoredCheckpoint) → Except PyErr (Option Checkpoint)
  | .error e => .error e
  | .ok none => .ok none
  | .ok (some doc) => doc.read.map some

/-- Reading back a document is parsing its watermark. -/
lemma readStored_stored [Runtime] (watermark : DateTime) (seen : Dict String String) :
    readStored (.ok (some (Checkpoint.stored ⟨some watermark, seen⟩))) =
      (parseTs (.str watermark.isoformat)).map fun read => some ⟨read, seen⟩ := by
  change (parseTs (.str watermark.isoformat) >>= fun read =>
    pure (Checkpoint.mk read seen)).map some = _
  cases parseTs (.str watermark.isoformat) with
  | error e => rfl
  | ok read => rfl

/-- With a watermark in UTC, the document is read as what was written; other offsets need not
survive the text. -/
theorem readStored_of_utc [Runtime] {cp : Checkpoint}
    (hutc : ∀ d, cp.watermark = some d → d.IsUtc) :
    readStored (.ok (some cp.stored)) = .ok (some cp) := by
  obtain ⟨watermark, seen⟩ := cp
  cases watermark with
  | none => rfl
  | some d =>
    rw [readStored_stored, parseTs_isoformat_utc (hutc d rfl)]
    rfl

/-- The two-method interface over the state of the store object and what it
persists. A load only reads; a save replaces the document or leaves it alone. -/
structure CheckpointStore [Runtime] (σ : Type) where
  persisted : σ → Except PyErr (Option StoredCheckpoint)
  load : σ → Except PyErr (Option Checkpoint) × σ
  save : σ → Checkpoint → Except SaveError Unit × σ
  load_reads : ∀ s, (load s).1 = readStored (persisted s)
  load_keeps : ∀ s, persisted (load s).2 = persisted s
  save_writes : ∀ s cp, (save s cp).1 = .ok () → persisted (save s cp).2 = .ok (some cp.stored)
  save_keeps : ∀ s cp e, (save s cp).1 = .error e → persisted (save s cp).2 = persisted s

/-- The checkpoint file as a load finds it. A missing file and an empty one are no checkpoint;
unreadable content raises. -/
inductive FileState where
  | missing
  | empty
  | corrupt (e : PyErr)
  | written (doc : StoredCheckpoint)
  deriving DecidableEq

def FileState.persisted : FileState → Except PyErr (Option StoredCheckpoint)
  | missing => .ok none
  | empty => .ok none
  | corrupt e => .error e
  | written doc => .ok (some doc)

/-- `FileCheckpointStore`. The new document is written aside and moved into place,
so a failing filesystem operation (`fault`) leaves the file as it was. -/
def fileStore [Runtime] (fault : FileState → Option PyErr) : CheckpointStore FileState where
  persisted := FileState.persisted
  load state := (readStored state.persisted, state)
  save state cp :=
    match fault state with
    | some e => (.error (.failed e), state)
    | none => (.ok (), .written cp.stored)
  load_reads _ := rfl
  load_keeps _ := rfl
  save_writes s cp h := by
    cases hf : fault s with
    | none => rfl
    | some e => simp [hf] at h
  save_keeps s cp e h := by
    cases hf : fault s with
    | none => simp [hf] at h
    | some e' => rfl

structure DynamoItem where
  version : ℕ
  doc : StoredCheckpoint
  deriving DecidableEq

/-- The version that a load records; 0 when there is no item. -/
def versionOf (item : Option DynamoItem) : ℕ := (item.map DynamoItem.version).getD 0

/-- The item that all store objects share, and the version that this one last loaded or wrote, on
which its next write is conditional. -/
structure DynamoState where
  item : Option DynamoItem
  version : ℕ

namespace DynamoState

def persisted (state : DynamoState) : Except PyErr (Option StoredCheckpoint) :=
  .ok (state.item.map DynamoItem.doc)

def load [Runtime] (state : DynamoState) : Except PyErr (Option Checkpoint) × DynamoState :=
  match state.item with
  | none => (.ok none, { state with version := 0 })
  | some item => (item.doc.read.map some, { state with version := item.version })

/-- The conditional write: the item must not exist at version 0, and must carry the
expected version otherwise. -/
def condition (state : DynamoState) : Bool :=
  match state.item with
  | none => state.version == 0
  | some item => state.version != 0 && item.version == state.version

def save (state : DynamoState) (cp : Checkpoint) : Except SaveError Unit × DynamoState :=
  if state.condition then
    (.ok (), ⟨some ⟨state.version + 1, cp.stored⟩, state.version + 1⟩)
  else (.error .conflict, state)

end DynamoState

lemma load_versionOf [Runtime] (s : DynamoState) : s.load.2 = ⟨s.item, versionOf s.item⟩ ∧
    s.load.1 = readStored (.ok (s.item.map DynamoItem.doc)) := by
  obtain ⟨item, version⟩ := s
  cases item <;> exact ⟨rfl, rfl⟩

/-- `DynamoDbCheckpointStore`, on a table whose requests succeed and whose reads give the current
item. -/
def dynamoStore [Runtime] : CheckpointStore DynamoState where
  persisted := DynamoState.persisted
  load := DynamoState.load
  save := DynamoState.save
  load_reads s := by
    obtain ⟨item, version⟩ := s
    cases item <;> rfl
  load_keeps s := by
    obtain ⟨item, version⟩ := s
    cases item <;> rfl
  save_writes s cp h := by
    by_cases hc : s.condition = true
    · simp [DynamoState.save, hc, DynamoState.persisted]
    · simp [DynamoState.save, hc] at h
  save_keeps s cp e h := by
    by_cases hc : s.condition = true
    · simp [DynamoState.save, hc] at h
    · simp [DynamoState.save, hc]

end InferenceControlPlane.Sli
