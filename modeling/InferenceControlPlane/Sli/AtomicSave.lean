import InferenceControlPlane.Python.Files
import InferenceControlPlane.Python.JsonText
import InferenceControlPlane.Sli.Checkpoint
import Mathlib.Data.List.Sort

/-!
# The checkpoint file

`FileCheckpointStore` over a disk. A save writes the document aside, under a name that
`mkstemp` draws, and moves it into place; a load parses what it finds. Stopped anywhere, a
save leaves the old checkpoint or the new one, unless `mkstemp` draws the name of the
checkpoint file itself.
-/
namespace InferenceControlPlane.Sli
open Python JsonText

/-! ## Documents -/

/-- `sort_keys=True`. -/
def sortKeys {α : Type} (es : List (String × α)) : List (String × α) :=
  es.insertionSort fun a b => a.1 ≤ b.1

def watermarkText : Option DateTime → List Char
  | some d => encodeString d.isoformat
  | none => ['n', 'u', 'l', 'l']

def seenText (seen : Dict String String) : List Char :=
  encodeObject ((sortKeys seen.entries).map fun e => (e.1, encodeString e.2))

/-- `json.dump(cp.to_json(), fh, sort_keys=True)`: the text that a save writes and a load
parses. -/
def Checkpoint.dump (cp : Checkpoint) : List Char :=
  encodeObject <| sortKeys
    [("version", ['1']), ("watermark", watermarkText cp.watermark), ("seen", seenText cp.seen)]

/-- A checkpoint as `from_json` builds it. The types of the seen map are not checked: it
is what `dict` makes of the field, here the assignments in their order. -/
structure Loaded where
  watermark : Option DateTime
  seen : List (Json × Json)

/-- The loaded checkpoint is the given one. Dictionaries are equal whatever their order. -/
def Loaded.Is (loaded : Loaded) (cp : Checkpoint) : Prop :=
  loaded.watermark = cp.watermark ∧
    loaded.seen.Perm (cp.seen.entries.map fun e => (.str e.1, .str e.2))

def hashable : Json → Bool
  | .arr _ => false
  | .obj _ => false
  | _ => true

/-- An element of a sequence from which `dict` is built. -/
def pairOf : Json → Except PyErr (Json × Json)
  | .arr [key, value] => if hashable key then .ok (key, value) else .error .typeError
  | .arr _ => .error .valueError
  | .obj [first, second] => .ok (.str first.1, .str second.1)
  | .obj _ => .error .valueError
  | .str s =>
    match s.toList with
    | [a, b] => .ok (.str (String.singleton a), .str (String.singleton b))
    | _ => .error .valueError
  | _ => .error .typeError

/-- `dict(value)`. -/
def dictOf : Json → Except PyErr (List (Json × Json))
  | .obj fields => .ok (fields.map fun e => (.str e.1, e.2))
  | .arr items => items.mapM pairOf
  | .str s => s.toList.mapM fun c => pairOf (.str (String.singleton c))
  | _ => .error .typeError

/-- `Checkpoint.from_json`: a watermark that must parse, and the seen map as it is. -/
def fromJson [Runtime] : Json → Except PyErr Loaded
  | .obj fields => do
    let watermark ← parseTs (field fields "watermark")
    let seen ← dictOf (orElse (field fields "seen") (.obj []))
    return ⟨watermark, seen⟩
  | _ => .error .attributeError

lemma sortKeys_document {α : Type} (version watermark seen : α) :
    sortKeys [("version", version), ("watermark", watermark), ("seen", seen)] =
      [("seen", seen), ("version", version), ("watermark", watermark)] := by
  have hfirst : "version" ≤ "seen" ↔ False := by decide
  have hsecond : "watermark" ≤ "seen" ↔ False := by decide
  have hthird : "version" ≤ "watermark" ↔ True := by decide
  simp [sortKeys, List.insertionSort, List.orderedInsert, hfirst, hsecond, hthird]

section
variable [Runtime]

lemma reads_watermarkText {watermark : Option DateTime}
    (hutc : ∀ d, watermark = some d → d.IsUtc) :
    ∃ value, Reads (watermarkText watermark) value ∧ parseTs value = .ok watermark := by
  cases watermark with
  | none => exact ⟨.null, reads_null, rfl⟩
  | some d => exact ⟨.str d.isoformat, reads_encodeString _, parseTs_isoformat_utc (hutc d rfl)⟩

lemma reads_seenText (seen : Dict String String) :
    Reads (seenText seen) (.obj ((sortKeys seen.entries).map fun e => (e.1, .str e.2))) := by
  have hperm : (sortKeys seen.entries).Perm seen.entries := List.perm_insertionSort ..
  let members := (sortKeys seen.entries).map fun e => (e.1, encodeString e.2, Json.str e.2)
  have hkeys : (members.map Prod.fst).Nodup := by
    have hmap : members.map Prod.fst = (sortKeys seen.entries).map Prod.fst := by
      rw [List.map_map]
      rfl
    rw [hmap, (hperm.map Prod.fst).nodup_iff]
    exact seen.nodup
  have hmembers : ∀ e ∈ members, Reads e.2.1 e.2.2 := by
    intro e he
    obtain ⟨entry, -, rfl⟩ := List.mem_map.mp he
    exact reads_encodeString entry.2
  have hreads := reads_encodeObject hkeys hmembers
  rw [List.map_map, List.map_map] at hreads
  exact hreads

/-- What is written is read back: the text of a checkpoint parses into the document that it was
made of. -/
theorem loads_dump {cp : Checkpoint} (hutc : ∀ d, cp.watermark = some d → d.IsUtc) :
    ∃ loaded, (loads cp.dump >>= fromJson) = .ok loaded ∧ loaded.Is cp := by
  obtain ⟨watermark, hwatermark, hparse⟩ := reads_watermarkText hutc
  let seen : List (String × Json) := (sortKeys cp.seen.entries).map fun e => (e.1, .str e.2)
  let members : List (String × List Char × Json) :=
    [("seen", seenText cp.seen, .obj seen), ("version", ['1'], .int 1),
      ("watermark", watermarkText cp.watermark, watermark)]
  have hmembers : ∀ e ∈ members, Reads e.2.1 e.2.2 := by
    simp only [members, List.forall_mem_cons, List.not_mem_nil, false_imp_iff, implies_true,
      and_true]
    exact ⟨reads_seenText cp.seen, reads_one, hwatermark⟩
  have hkeys : (members.map Prod.fst).Nodup := by
    have hnames : ["seen", "version", "watermark"].Nodup := by decide
    exact hnames
  have hreads : Reads cp.dump (.obj (members.map fun e => (e.1, e.2.2))) := by
    rw [Checkpoint.dump, sortKeys_document]
    exact reads_encodeObject hkeys hmembers
  have hseen : dictOf (orElse (.obj seen) (.obj [])) =
      .ok (seen.map fun e => (.str e.1, e.2)) := by
    cases hempty : seen with
    | nil => rfl
    | cons e es => rfl
  refine ⟨⟨cp.watermark, seen.map fun e => (.str e.1, e.2)⟩, ?_, rfl, ?_⟩
  · have hfields : fromJson (.obj (members.map fun e => (e.1, e.2.2))) = (do
        let watermark ← parseTs watermark
        let seen ← dictOf (orElse (.obj seen) (.obj []))
        return ⟨watermark, seen⟩) := rfl
    rw [hreads.loads]
    refine hfields.trans ?_
    rw [hparse, hseen]
    rfl
  · have hperm : (sortKeys cp.seen.entries).Perm cp.seen.entries := List.perm_insertionSort ..
    simp only [seen, List.map_map]
    exact hperm.map _

end

/-! ## The store -/

/-- `FileCheckpointStore`, by the resolved path of its file: the directory in which it writes, and
the file's name there. -/
structure FileCheckpointStore where
  directory : Path
  name : String

namespace FileCheckpointStore

variable (store : FileCheckpointStore)

def path : Path := store.directory ++ [store.name]

/-- `load`. A directory counts as a file that has content and cannot be opened. -/
def load [Runtime] (disk : Disk) : Except PyErr (Option Loaded) :=
  match disk store.path with
  | none => .ok none
  | some .directory => .error (.raised "IsADirectoryError")
  | some (.unreadable e) => .error e
  | some (.file []) => .ok none
  | some (.file text) => (loads text >>= fromJson).map some

/-- `if os.path.exists(tmp): os.remove(tmp)`: the temporary file goes, unless it has been moved
over the checkpoint. -/
def cleanUp (tmp : Path) : FileProgram (Except PyErr Unit) := do
  let found ← perform (.pathExists tmp)
  if found then perform (.remove tmp) else pure (.ok ())

/-- The body of the `try` block: the file is written and closed before it is moved over the
checkpoint, so that no reader sees a part of it. -/
def writeAndReplace (cp : Checkpoint) (tmp : Path) : FileProgram (Except PyErr Unit) :=
  (perform (.fdopen tmp)).andThen fun _ =>
  ((writeAll tmp cp.dump).ensuring (perform (.close tmp))).andThen fun _ =>
  perform (.replace tmp store.path)

/-- `save`: the directory is made, a new file beside the checkpoint is written, closed and moved
over it, and removed where it is still there. -/
def save (cp : Checkpoint) : FileProgram (Except PyErr Unit) :=
  (perform (.makedirs store.directory)).andThen fun _ =>
  (perform (.mkstemp store.directory ".tmp")).andThen fun tmp =>
  (store.writeAndReplace cp tmp).ensuring (cleanUp tmp)

/-- A load returns the checkpoint. -/
def Holds [Runtime] (disk : Disk) (cp : Checkpoint) : Prop :=
  ∃ loaded, store.load disk = .ok (some loaded) ∧ loaded.Is cp

/-- A load returns what it returned before or the new checkpoint. -/
def Survives [Runtime] (disk : Disk) (cp : Checkpoint) (disk' : Disk) : Prop :=
  store.load disk' = store.load disk ∨ store.Holds disk' cp

/-- A save that has returned normally has saved the checkpoint. One that has raised leaves
nothing behind but directories. -/
def Settles [Runtime] (disk : Disk) (cp : Checkpoint) (result : Except PyErr Unit)
    (disk' : Disk) : Prop :=
  (result = .ok () → store.Holds disk' cp) ∧
    ∀ e, result = .error e →
      store.load disk' = store.load disk ∧ Made store.directory disk disk'

/-- What holds wherever a save stops, and when it comes to an end. -/
def SavesAtomically [Runtime] (disk : Disk) (cp : Checkpoint) : Prop :=
  ∀ rest disk', (store.save cp).Interrupted Answers disk rest disk' →
    store.Survives disk cp disk' ∧ ∀ result, rest = .done result →
      store.Settles disk cp result disk'

/-- `mkstemp` can create the checkpoint file itself: its name is one that is drawn, and it
is not there although it could be. -/
def Exposed (disk : Disk) : Prop :=
  (∃ letters, Drawable letters ∧ store.name = tempName letters ".tmp") ∧
    disk store.path = none ∧ Passable disk store.directory

variable {store} {cp : Checkpoint} {disk base s : Disk} {tmp : Path}

lemma load_congr [Runtime] {disk' : Disk} (h : disk' store.path = disk store.path) :
    store.load disk' = store.load disk := by
  rw [load, load, h]

lemma holds_of_written [Runtime] (hutc : ∀ d, cp.watermark = some d → d.IsUtc)
    (h : s store.path = some (.file cp.dump)) : store.Holds s cp := by
  obtain ⟨loaded, hloads, his⟩ := loads_dump hutc
  refine ⟨loaded, ?_, his⟩
  obtain ⟨c, cs, hdump⟩ : ∃ c cs, cp.dump = c :: cs := ⟨_, _, rfl⟩
  rw [load, h, hdump]
  rw [hdump] at hloads
  exact congrArg (Except.map some) hloads

lemma load_of_made [Runtime] (h : Made store.directory disk s) : store.load s = store.load disk :=
  load_congr (h.below store.name)

/-! ## Guards -/

/-- The clean-up leaves no file at the temporary path. -/
lemma guards_cleanUp {crash : Disk → Prop} (hcrash : crash s) (hfile : s tmp ≠ some .directory)
    (hgone : crash (Function.update s tmp none)) :
    (cleanUp tmp).Guards Answers crash
      (fun cleaned s' => cleaned = .ok () ∧ s' = Function.update s tmp none) s := by
  have hexists : (perform (.pathExists tmp)).Guards Answers crash
      (fun found s' => found = (s tmp).isSome ∧ s' = s) s := by
    apply Program.guards_perform hcrash
    intro found s' hanswer
    obtain ⟨hfound, rfl⟩ := hanswer
    exact ⟨hcrash, hfound, rfl⟩
  apply hexists.bind
  intro found s' _ hmid
  obtain ⟨rfl, rfl⟩ := hmid
  cases hentry : s' tmp with
  | none =>
    have hsame : Function.update s' tmp none = s' := by
      rw [← hentry, Function.update_eq_self]
    exact ⟨hcrash, rfl, hsame.symm⟩
  | some entry =>
    apply Program.guards_perform hcrash
    intro r s'' hanswer
    cases r with
    | ok u =>
      obtain ⟨-, rfl⟩ := hanswer
      exact ⟨hgone, rfl, rfl⟩
    | error e =>
      obtain ⟨hnone, -⟩ := hanswer
      rw [hnone entry hentry] at hentry
      exact absurd hentry hfile

/-- The `try` block moves the whole document into place, or leaves it aside. -/
lemma guards_writeAndReplace {crash : Disk → Prop} (htmp : base tmp = none)
    (hne : tmp ≠ store.path) (hstaged : ∀ s, Staged base tmp s → crash s)
    (hnew : crash (Function.update base store.path (some (.file cp.dump)))) :
    (store.writeAndReplace cp tmp).Guards Answers crash
      (fun r s => r = .ok () ∧ s = Function.update base store.path (some (.file cp.dump)) ∨
        (∃ e, r = .error e) ∧ Staged base tmp s)
      (Function.update base tmp (some (.file []))) := by
  have hempty : Staged base tmp (Function.update base tmp (some (.file []))) := ⟨[], rfl⟩
  have hopen : (perform (.fdopen tmp)).Guards Answers crash
      (fun _ s => s = Function.update base tmp (some (.file [])))
      (Function.update base tmp (some (.file []))) := by
    apply Program.guards_perform (hstaged _ hempty)
    intro r s' hanswer
    exact ⟨hanswer ▸ hstaged _ hempty, hanswer⟩
  have hwrite : ((writeAll tmp cp.dump).ensuring (perform (.close tmp))).Guards Answers crash
      (fun r s => Staged base tmp s ∧
        (r = .ok () → s = Function.update base tmp (some (.file cp.dump))))
      (Function.update base tmp (some (.file []))) := by
    apply (guards_writeAll hstaged cp.dump []).ensuring
    intro result s hcrash hmid
    apply Program.guards_perform hcrash
    intro r s' hanswer
    cases r with
    | ok u =>
      cases hanswer
      exact ⟨hcrash, hmid⟩
    | error e =>
      have hspoiled := hmid.1.spoiled hanswer
      exact ⟨hstaged _ hspoiled, hspoiled, fun h => by cases h⟩
  apply hopen.andThen
  · intro u s _ hs
    rw [hs]
    apply hwrite.andThen
    · intro u s hcrash hmid
      apply Program.guards_perform hcrash
      intro r s' hanswer
      cases r with
      | error e =>
        cases hanswer
        exact ⟨hcrash, Or.inr ⟨⟨e, rfl⟩, hmid.1⟩⟩
      | ok u =>
        obtain ⟨entry, hentry, -, -, rfl⟩ := hanswer
        rw [hmid.2 rfl, Function.update_self, Option.some.injEq] at hentry
        have hmoved : (if tmp = store.path then s
            else Function.update (Function.update s store.path (some entry)) tmp none) =
            Function.update base store.path (some (.file cp.dump)) := by
          rw [if_neg hne, hmid.2 rfl, ← hentry, Function.update_comm hne.symm, Function.update_idem,
            ← htmp, Function.update_eq_self]
        rw [hmoved]
        exact ⟨hnew, Or.inl ⟨rfl, rfl⟩⟩
    · intro e s _ hmid
      exact Or.inr ⟨⟨e, rfl⟩, hmid.1⟩
  · intro e s _ hs
    exact Or.inr ⟨⟨e, rfl⟩, hs ▸ hempty⟩

section
variable [Runtime]

/-- A file aside does not matter to a load. -/
lemma survives_of_staged (hbase : Made store.directory disk base) (hne : tmp ≠ store.path)
    (h : Staged base tmp s) : store.Survives disk cp s := by
  obtain ⟨text, rfl⟩ := h
  have hload : store.load (Function.update base tmp (some (.file text))) = store.load base :=
    load_congr (Function.update_of_ne hne.symm _ _)
  exact Or.inl (hload.trans (load_of_made hbase))

lemma guards_makedirs :
    (perform (.makedirs store.directory)).Guards Answers (store.Survives disk cp)
      (fun r s => Made store.directory disk s ∧ (r = .ok () → Passable disk store.directory))
      disk := by
  apply Program.guards_perform
  · exact Or.inl rfl
  · intro r s hanswer
    cases r with
    | error e => exact ⟨Or.inl (load_of_made hanswer), hanswer, fun h => by cases h⟩
    | ok u =>
      obtain ⟨hmade, hall⟩ := hanswer
      refine ⟨Or.inl (load_of_made hmade), hmade, ?_⟩
      intro _ path hpath
      rcases hmade path with heq | ⟨hnone, -⟩
      · exact Or.inr (heq ▸ hall path ((List.mem_inits _ _).mp hpath))
      · exact Or.inl hnone

/-- The file that `mkstemp` creates is not the checkpoint file. -/
lemma guards_mkstemp (hexposed : ¬ store.Exposed disk) (hbase : Made store.directory disk base)
    (hpassable : Passable disk store.directory) :
    (perform (.mkstemp store.directory ".tmp")).Guards Answers (store.Survives disk cp)
      (fun r s => (∀ tmp, r = .ok tmp → base tmp = none ∧ tmp ≠ store.path ∧
        s = Function.update base tmp (some (.file []))) ∧ ((∃ e, r = .error e) → s = base))
      base := by
  apply Program.guards_perform
  · exact Or.inl (load_of_made hbase)
  · intro r s hanswer
    cases r with
    | error e =>
      cases hanswer
      exact ⟨Or.inl (load_of_made hbase), fun tmp h => (by cases h), fun _ => rfl⟩
    | ok tmp =>
      obtain ⟨⟨letters, hletters, rfl⟩, -, hnone, rfl⟩ := hanswer
      have hne : store.directory ++ [tempName letters ".tmp"] ≠ store.path := by
        intro heq
        rw [hbase.below, heq] at hnone
        have hname : tempName letters ".tmp" = store.name := by
          simpa [path] using heq
        exact hexposed ⟨⟨letters, hletters, hname.symm⟩, hnone, hpassable⟩
      refine ⟨survives_of_staged hbase hne ⟨[], rfl⟩, ?_, ?_⟩
      · intro tmp htmp
        cases htmp
        exact ⟨hnone, hne, rfl⟩
      · intro herror
        obtain ⟨e, he⟩ := herror
        cases he

/-- The `try` block with its clean-up. -/
lemma guards_try (hutc : ∀ d, cp.watermark = some d → d.IsUtc)
    (hbase : Made store.directory disk base) (htmp : base tmp = none) (hne : tmp ≠ store.path) :
    ((store.writeAndReplace cp tmp).ensuring (cleanUp tmp)).Guards Answers
      (store.Survives disk cp) (store.Settles disk cp)
      (Function.update base tmp (some (.file []))) := by
  have hold : store.Survives disk cp base := Or.inl (load_of_made hbase)
  have hnew : store.Holds (Function.update base store.path (some (.file cp.dump))) cp :=
    holds_of_written hutc (Function.update_self ..)
  apply (guards_writeAndReplace htmp hne (fun s => survives_of_staged hbase hne)
    (Or.inr hnew)).ensuring
  intro result s hcrash hmid
  rcases hmid with ⟨rfl, rfl⟩ | ⟨⟨e, rfl⟩, text, rfl⟩
  · -- the file is in place, and nothing is left at the temporary path
    have hgone : Function.update base store.path (some (.file cp.dump)) tmp = none := by
      rw [Function.update_of_ne hne, htmp]
    have hsame : Function.update (Function.update base store.path (some (.file cp.dump))) tmp none =
        Function.update base store.path (some (.file cp.dump)) := by
      rw [← hgone, Function.update_eq_self]
    have hnothing : Function.update base store.path (some (.file cp.dump)) tmp ≠
        some .directory := by
      rw [hgone]
      simp
    apply (guards_cleanUp hcrash hnothing (by rw [hsame]; exact Or.inr hnew)).mono
    intro cleaned s' hcleaned
    obtain ⟨rfl, rfl⟩ := hcleaned
    rw [hsame]
    exact ⟨fun _ => hnew, fun _ h => (by cases h)⟩
  · have hclean : Function.update (Function.update base tmp (some (.file text))) tmp none =
        base := by
      rw [Function.update_idem, ← htmp, Function.update_eq_self]
    have hfile : Function.update base tmp (some (.file text)) tmp ≠ some .directory := by
      rw [Function.update_self]
      simp
    apply (guards_cleanUp hcrash hfile (by rw [hclean]; exact hold)).mono
    intro cleaned s' hcleaned
    obtain ⟨rfl, rfl⟩ := hcleaned
    rw [hclean]
    exact ⟨fun h => (by cases h), fun _ _ => ⟨load_of_made hbase, hbase⟩⟩

/-- A save that cannot be given the name of its own file is atomic: at any moment, the file is the
old one or the new one. -/
theorem guards_save (hutc : ∀ d, cp.watermark = some d → d.IsUtc)
    (hexposed : ¬ store.Exposed disk) :
    (store.save cp).Guards Answers (store.Survives disk cp) (store.Settles disk cp) disk := by
  apply guards_makedirs.andThen
  · intro u base _ hmid
    obtain ⟨hbase, hpassable⟩ := hmid
    apply (guards_mkstemp hexposed hbase (hpassable rfl)).andThen
    · intro tmp s _ hmid
      obtain ⟨htmp, hne, rfl⟩ := hmid.1 tmp rfl
      exact guards_try hutc hbase htmp hne
    · intro e s _ hmid
      rw [hmid.2 ⟨e, rfl⟩]
      exact ⟨fun h => (by cases h), fun _ _ => ⟨load_of_made hbase, hbase⟩⟩
  · intro e s _ hmid
    exact ⟨fun h => (by cases h), fun _ _ => ⟨load_of_made hmid.1, hmid.1⟩⟩

end

/-! ## Where the temporary file is the checkpoint file -/

lemma outcome_cleanUp (letters : List Char) (h : s tmp ≠ some .directory) :
    (cleanUp tmp).outcome (obliging letters) s = (.ok (), Function.update s tmp none) := by
  have hexists : (perform (.pathExists tmp)).outcome (obliging letters) s =
      ((s tmp).isSome, s) := rfl
  refine (Program.outcome_bind hexists _).trans ?_
  cases hentry : s tmp with
  | none =>
    have hsame : Function.update s tmp none = s := by
      rw [← hentry, Function.update_eq_self]
    rw [hsame]
    rfl
  | some entry =>
    rw [hentry, Ne, Option.some.injEq] at h
    have hremove : (perform (.remove tmp)).outcome (obliging letters) s =
        (.ok (), Function.update s tmp none) := by
      rw [Program.outcome_perform]
      simp only [obliging, hentry, if_neg h]
    exact hremove

/-- The `try` block and its clean-up on an obliging disk. -/
lemma outcome_try (cp : Checkpoint) (letters : List Char) (htmp : base tmp = none)
    (htarget : base store.path ≠ some .directory) :
    ((store.writeAndReplace cp tmp).ensuring (cleanUp tmp)).outcome (obliging letters)
        (Function.update base tmp (some (.file []))) =
      (.ok (), if tmp = store.path then base
        else Function.update base store.path (some (.file cp.dump))) := by
  have hopen : (perform (.fdopen tmp)).outcome (obliging letters)
      (Function.update base tmp (some (.file []))) =
        (.ok (), Function.update base tmp (some (.file []))) := rfl
  have hwrite := outcome_writeAll letters cp.dump
    (Function.update_self tmp (some (.file [])) base)
  rw [Function.update_idem, List.nil_append] at hwrite
  have hclose : (perform (.close tmp)).outcome (obliging letters)
      (Function.update base tmp (some (.file cp.dump))) =
        (.ok (), Function.update base tmp (some (.file cp.dump))) := rfl
  have hstaged := Program.outcome_ensuring hwrite hclose
  obtain ⟨moved, hreplace, hleft, hcleaned⟩ : ∃ moved,
      (perform (.replace tmp store.path)).outcome (obliging letters)
        (Function.update base tmp (some (.file cp.dump))) = (.ok (), moved) ∧
      moved tmp ≠ some .directory ∧ Function.update moved tmp none =
        if tmp = store.path then base
        else Function.update base store.path (some (.file cp.dump)) := by
    simp only [Program.outcome_perform]
    by_cases hsame : tmp = store.path
    · refine ⟨Function.update base tmp (some (.file cp.dump)), ?_, ?_, ?_⟩
      · simp [obliging, ← hsame]
      · simp
      · rw [if_pos hsame, Function.update_idem, ← htmp, Function.update_eq_self]
    · refine ⟨Function.update base store.path (some (.file cp.dump)), ?_, ?_, ?_⟩
      · have hmoved : Function.update (Function.update (Function.update base tmp
            (some (.file cp.dump))) store.path (some (.file cp.dump))) tmp none =
              Function.update base store.path (some (.file cp.dump)) := by
          rw [Function.update_comm (Ne.symm hsame), Function.update_idem, ← htmp,
            Function.update_eq_self]
        simp [obliging, Ne.symm hsame, hsame, htarget, hmoved]
      · simp [Function.update_of_ne hsame, htmp]
      · rw [if_neg hsame, Function.update_comm (Ne.symm hsame), ← htmp, Function.update_eq_self]
  have htry : (store.writeAndReplace cp tmp).outcome (obliging letters)
      (Function.update base tmp (some (.file []))) = (.ok (), moved) :=
    (Program.outcome_andThen hopen _).trans ((Program.outcome_andThen hstaged _).trans hreplace)
  rw [← hcleaned]
  exact Program.outcome_ensuring htry (outcome_cleanUp letters hleft)

/-- A save on an obliging disk returns normally. The checkpoint file then holds the
document, or is gone if it was the temporary file. -/
lemma outcome_save (cp : Checkpoint) {letters : List Char}
    (hpassable : Passable disk store.directory)
    (hfree : disk (store.directory ++ [tempName letters ".tmp"]) = none)
    (htarget : disk store.path ≠ some .directory) :
    ∃ disk', (store.save cp).outcome (obliging letters) disk = (.ok (), disk') ∧
      disk' store.path = if store.directory ++ [tempName letters ".tmp"] = store.path then none
        else some (.file cp.dump) := by
  let base : Disk := fun path => if path <+: store.directory then some .directory else disk path
  have hdirs : (perform (.makedirs store.directory)).outcome (obliging letters) disk =
      (.ok (), base) := if_pos hpassable
  have hmade : Made store.directory disk base := made_prefixes hpassable
  have hbase : base (store.directory ++ [tempName letters ".tmp"]) = none := by
    rw [hmade.below, hfree]
  have htemp : (perform (.mkstemp store.directory ".tmp")).outcome (obliging letters) base =
      (.ok (store.directory ++ [tempName letters ".tmp"]), Function.update base
        (store.directory ++ [tempName letters ".tmp"]) (some (.file []))) :=
    if_pos ⟨if_pos (List.prefix_refl _), hbase⟩
  have hplace : base store.path ≠ some .directory := (hmade.below store.name).trans_ne htarget
  refine ⟨_, (Program.outcome_andThen hdirs _).trans ((Program.outcome_andThen htemp _).trans
    (outcome_try cp letters hbase hplace)), ?_⟩
  split_ifs with hsame
  · rw [← hsame, hbase]
  · rw [Function.update_self]

section
variable [Runtime]

/-- A save that is given the name of its own file can return normally and leave nothing to
load: replacing a file by itself does nothing, and the clean-up removes it. -/
lemma save_lost (cp : Checkpoint) (h : store.Exposed disk) :
    ∃ disk', (store.save cp).Interrupted Answers disk (.done (.ok ())) disk' ∧
      store.load disk' = .ok none := by
  obtain ⟨⟨letters, hletters, hname⟩, hnone, hpassable⟩ := h
  have hpath : store.directory ++ [tempName letters ".tmp"] = store.path := by rw [← hname, path]
  obtain ⟨disk', houtcome, hleft⟩ := outcome_save cp hpassable (hpath ▸ hnone)
    (by simp [hnone])
  rw [if_pos hpath] at hleft
  obtain ⟨hresult, hfinal⟩ := Prod.ext_iff.mp houtcome
  have hrun := Program.interrupted_run (obliging letters) (obliging_answers hletters)
    (store.save cp) disk
  have hdone : (store.save cp).result (obliging letters) disk = .ok () := hresult
  have hend : (store.save cp).final (obliging letters) disk = disk' := hfinal
  rw [hdone, hend] at hrun
  refine ⟨disk', hrun, ?_⟩
  rw [load, hleft]

lemma not_savesAtomically (cp : Checkpoint) (h : store.Exposed disk) :
    ¬ store.SavesAtomically disk cp := by
  intro hatomic
  obtain ⟨disk', hrun, hload⟩ := save_lost cp h
  obtain ⟨loaded, hloaded, -⟩ := ((hatomic _ disk' hrun).2 (.ok ()) rfl).1 rfl
  rw [hload] at hloaded
  cases hloaded

/-- A save is atomic exactly where `mkstemp` cannot create the checkpoint file itself: after every
failure and every kill a load gives the old checkpoint or the new one, and the new one when the
save returns. -/
theorem savesAtomically_iff (store : FileCheckpointStore) (disk : Disk) (cp : Checkpoint)
    (hutc : ∀ d, cp.watermark = some d → d.IsUtc) :
    store.SavesAtomically disk cp ↔ ¬ store.Exposed disk := by
  constructor
  · intro hatomic hexposed
    exact not_savesAtomically cp hexposed hatomic
  · intro hexposed
    exact Program.guards_iff.mp (guards_save hutc hexposed)

end

/-- A checkpoint of the first midnight there is, over a file that is not JSON. -/
theorem savesAtomically_sample :
    letI := Runtime.ascii
    let midnight : DateTime := ⟨0, 0, Int.le_refl 0, maxWall_pos, neg_dayMicros_lt_zero,
      dayMicros_pos⟩
    let store : FileCheckpointStore := ⟨["state"], "checkpoint.json"⟩
    let disk : Disk := fun path =>
      if path = ["state", "checkpoint.json"] then some (.file ['x'])
      else if path = [] ∨ path = ["state"] then some .directory else none
    store.SavesAtomically disk ⟨some midnight, Dict.empty.set "a" midnight.isoformat⟩ := by
  let := Runtime.ascii
  intro midnight store disk
  apply (savesAtomically_iff store disk _ ?_).mpr
  · intro hexposed
    have hthere : disk store.path = some (.file ['x']) := by decide
    rw [hexposed.2.1] at hthere
    cases hthere
  · intro d hd
    cases hd
    rfl

/-- The checkpoint is named as `mkstemp` names its files, and is not there yet. The name that is
drawn is its own: the save returns, and has removed what it wrote. -/
theorem own_name_drawn :
    letI := Runtime.ascii
    let store : FileCheckpointStore := ⟨["state"], "tmpabcdefgh.tmp"⟩
    let disk : Disk := fun path => if path = [] ∨ path = ["state"] then some .directory else none
    let cp : Checkpoint := ⟨none, .empty⟩
    (∃ disk', (store.save cp).Interrupted Answers disk (.done (.ok ())) disk' ∧
      store.load disk' = .ok none) ∧ ¬ store.SavesAtomically disk cp := by
  let := Runtime.ascii
  intro store disk cp
  have hexposed : store.Exposed disk := by
    refine ⟨⟨"abcdefgh".toList, by decide, by decide⟩, by decide, by decide⟩
  exact ⟨save_lost cp hexposed, not_savesAtomically cp hexposed⟩

/-! ## The store of the pipeline

The runs of the pipeline are proved over `fileStore`, whose save fails or succeeds as a
whole. The program of this store does the same. -/

/-- A load of the file returns what a load of the other store returns. -/
def Agrees : Except PyErr (Option Loaded) → Except PyErr (Option Checkpoint) → Prop
  | .ok none, .ok none => True
  | .ok (some loaded), .ok (some cp) => loaded.Is cp
  | .error e, .error e' => e = e'
  | _, _ => False

variable [Runtime]

lemma agrees_of_holds (hutc : ∀ d, cp.watermark = some d → d.IsUtc) (h : store.Holds s cp) :
    Agrees (store.load s) (readStored (FileState.written cp.stored).persisted) := by
  have hread : readStored (FileState.written cp.stored).persisted = .ok (some cp) :=
    readStored_of_utc hutc
  obtain ⟨loaded, hload, his⟩ := h
  rw [hload, hread]
  exact his

/-- A save simulates the save of `fileStore`. One that is cut short leaves the state of
`fileStore` before its save or after it. -/
theorem save_simulates (hutc : ∀ d, cp.watermark = some d → d.IsUtc)
    (hexposed : ¬ store.Exposed disk) {state : FileState}
    (hstate : Agrees (store.load disk) (readStored state.persisted))
    {rest : FileProgram (Except PyErr Unit)} {disk' : Disk}
    (hrun : (store.save cp).Interrupted Answers disk rest disk') :
    (∃ fault, Agrees (store.load disk')
      (readStored ((fileStore fault).save state cp).2.persisted)) ∧
    ∀ result, rest = .done result → ∃ fault,
      ((fileStore fault).save state cp).1 = result.mapError SaveError.failed ∧
      Agrees (store.load disk') (readStored ((fileStore fault).save state cp).2.persisted) := by
  obtain ⟨hsurvives, hsettles⟩ := Program.guards_iff.mp (guards_save hutc hexposed) rest disk' hrun
  constructor
  · rcases hsurvives with hsame | hnew
    · refine ⟨fun _ => some .typeError, ?_⟩
      rw [hsame]
      exact hstate
    · exact ⟨fun _ => none, agrees_of_holds hutc hnew⟩
  · intro result hdone
    obtain ⟨hok, herror⟩ := hsettles result hdone
    cases result with
    | ok u => exact ⟨fun _ => none, rfl, agrees_of_holds hutc (hok rfl)⟩
    | error e =>
      refine ⟨fun _ => some e, rfl, ?_⟩
      rw [(herror e rfl).1]
      exact hstate

end FileCheckpointStore
end InferenceControlPlane.Sli
