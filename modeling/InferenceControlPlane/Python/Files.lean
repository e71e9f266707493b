import InferenceControlPlane.Interruptions
import InferenceControlPlane.Python.Values
import Mathlib.Data.List.Infix
import Mathlib.Logic.Function.Basic

/-!
# Files

A disk holds an entry at each path, and the calls of `os` and `tempfile` change it. A call
that fails may have done a part of its work where it has parts: `makedirs` has made some
of the directories, and a write or a close has left some text in the file. A file is
written character by character, so that every beginning of the text is found on the disk.
-/
namespace InferenceControlPlane.Python

/-- A resolved path, by its components. -/
abbrev Path := List String

inductive Entry where
  | directory
  | file (text : List Char)
  | unreadable (e : PyErr)
  deriving DecidableEq

abbrev Disk := Path → Option Entry

inductive FileOp where
  | makedirs (directory : Path)
  | mkstemp (directory : Path) (suffix : String)
  | fdopen (path : Path)
  | write (path : Path) (c : Char)
  | close (path : Path)
  | replace (source target : Path)
  | pathExists (path : Path)
  | remove (path : Path)

abbrev FileReply : FileOp → Type
  | .mkstemp _ _ => Except PyErr Path
  | .pathExists _ => Bool
  | _ => Except PyErr Unit

abbrev FileProgram (α : Type) : Type := Program FileOp FileReply α

/-- The program that is one call. -/
abbrev perform (op : FileOp) : FileProgram (FileReply op) := Program.perform op

/-- The letters from which `tempfile` draws names. -/
def tempLetters : List Char := "abcdefghijklmnopqrstuvwxyz0123456789_".toList

/-- Letters that `mkstemp` can draw. -/
def Drawable (letters : List Char) : Prop :=
  letters.length = 8 ∧ (letters.all (tempLetters.contains ·)) = true

instance (letters : List Char) : Decidable (Drawable letters) :=
  inferInstanceAs (Decidable (_ ∧ _))

def tempName (letters : List Char) (suffix : String) : String :=
  "tmp" ++ String.ofList letters ++ suffix

/-- Directories have been made on the way to a path, and nothing else has changed. -/
def Made (directory : Path) (s s' : Disk) : Prop :=
  ∀ path, s' path = s path ∨ s path = none ∧ s' path = some .directory ∧ path <+: directory

/-- The text of a file may have changed. -/
def Spoiled (path : Path) (s s' : Disk) : Prop :=
  s' = s ∨ ∃ text text', s path = some (.file text) ∧
    s' = Function.update s path (some (.file text'))

/-- The replies that a disk allows, and what they make of it. `replace` is atomic, and the
removal of a file succeeds. -/
def Answers (s : Disk) (op : FileOp) (r : FileReply op) (s' : Disk) : Prop :=
  match op, r with
  | .makedirs directory, .ok () =>
    Made directory s s' ∧ ∀ path, path <+: directory → s' path = some .directory
  | .makedirs directory, .error _ => Made directory s s'
  | .mkstemp directory suffix, .ok path =>
    (∃ letters, Drawable letters ∧ path = directory ++ [tempName letters suffix]) ∧
      s directory = some .directory ∧ s path = none ∧
      s' = Function.update s path (some (.file []))
  | .mkstemp _ _, .error _ => s' = s
  | .fdopen _, _ => s' = s
  | .write path c, .ok () =>
    ∃ text, s path = some (.file text) ∧ s' = Function.update s path (some (.file (text ++ [c])))
  | .write path _, .error _ => Spoiled path s s'
  | .close _, .ok () => s' = s
  | .close path, .error _ => Spoiled path s s'
  | .replace source target, .ok () =>
    ∃ entry, s source = some entry ∧ entry ≠ .directory ∧ s target ≠ some .directory ∧
      s' = if source = target then s
        else Function.update (Function.update s target (some entry)) source none
  | .replace _ _, .error _ => s' = s
  | .pathExists path, found => found = (s path).isSome ∧ s' = s
  | .remove path, .ok () =>
    (∃ entry, s path = some entry ∧ entry ≠ .directory) ∧ s' = Function.update s path none
  | .remove path, .error _ => (∀ entry, s path = some entry → entry = .directory) ∧ s' = s

/-- `fh.write(text)`. -/
def writeAll (path : Path) : List Char → FileProgram (Except PyErr Unit)
  | [] => pure (.ok ())
  | c :: cs => (perform (.write path c)).andThen fun _ => writeAll path cs

/-- No directory on the way is below the path. -/
theorem Made.below {directory : Path} {s s' : Disk} (h : Made directory s s') (name : String) :
    s' (directory ++ [name]) = s (directory ++ [name]) := by
  rcases h (directory ++ [name]) with heq | ⟨-, -, hdir⟩
  · exact heq
  · have hlength := hdir.length_le
    rw [List.length_append, List.length_singleton] at hlength
    omega

/-! ## Staging

What a disk looks like while one file is written aside. -/

/-- The disk with some text in the file at the path. -/
def Staged (base : Disk) (path : Path) (s : Disk) : Prop :=
  ∃ text, s = Function.update base path (some (.file text))

variable {base s s' : Disk} {path : Path}

lemma Staged.spoiled (h : Staged base path s) (hs : Spoiled path s s') : Staged base path s' := by
  obtain ⟨text, rfl⟩ := h
  rcases hs with rfl | ⟨_, text', _, rfl⟩
  · exact ⟨text, rfl⟩
  · exact ⟨text', Function.update_idem ..⟩

/-- Writing a text leaves a beginning of it in the file, and the whole of it at the end. -/
theorem guards_writeAll {crash : Disk → Prop} (hcrash : ∀ s, Staged base path s → crash s)
    (cs text : List Char) :
    (writeAll path cs).Guards Answers crash
      (fun r s => Staged base path s ∧
        (r = .ok () → s = Function.update base path (some (.file (text ++ cs)))))
      (Function.update base path (some (.file text))) := by
  induction cs generalizing text with
  | nil =>
    refine ⟨hcrash _ ⟨text, rfl⟩, ⟨text, rfl⟩, ?_⟩
    intro _
    rw [List.append_nil]
  | cons c cs ih =>
    have hwrite : (perform (.write path c)).Guards Answers crash
        (fun r s => Staged base path s ∧
          (r = .ok () → s = Function.update base path (some (.file (text ++ [c])))))
        (Function.update base path (some (.file text))) := by
      apply Program.guards_perform (hcrash _ ⟨text, rfl⟩)
      intro r s' hanswer
      cases r with
      | error e =>
        have hstaged := Staged.spoiled ⟨text, rfl⟩ hanswer
        exact ⟨hcrash _ hstaged, hstaged, fun h => by cases h⟩
      | ok u =>
        obtain ⟨text', htext, rfl⟩ := hanswer
        rw [Function.update_self] at htext
        cases htext
        rw [Function.update_idem]
        exact ⟨hcrash _ ⟨_, rfl⟩, ⟨_, rfl⟩, fun _ => rfl⟩
    apply hwrite.andThen
    · intro u s _ hmid
      rw [hmid.2 rfl]
      have hrest := ih (text ++ [c])
      rw [List.append_assoc, List.singleton_append] at hrest
      exact hrest
    · intro e s _ hmid
      exact ⟨hmid.1, fun h => by cases h⟩

/-! ## A disk that obliges -/

/-- The directories on the way to a path are there or can be made. -/
def Passable (s : Disk) (directory : Path) : Prop :=
  ∀ path ∈ directory.inits, s path = none ∨ s path = some .directory

instance (s : Disk) (directory : Path) : Decidable (Passable s directory) :=
  inferInstanceAs (Decidable (∀ path ∈ directory.inits, _))

/-- Every call succeeds where it can, and `mkstemp` always draws the same letters. -/
def obliging (letters : List Char) : World FileOp FileReply Disk
  | .makedirs directory, s =>
    if Passable s directory then
      (.ok (), fun path => if path <+: directory then some .directory else s path)
    else (.error (.raised "FileExistsError"), s)
  | .mkstemp directory suffix, s =>
    let path := directory ++ [tempName letters suffix]
    if s directory = some .directory ∧ s path = none then
      (.ok path, Function.update s path (some (.file [])))
    else (.error (.raised "FileExistsError"), s)
  | .fdopen _, s => (.ok (), s)
  | .write path c, s =>
    match s path with
    | some (.file text) => (.ok (), Function.update s path (some (.file (text ++ [c]))))
    | _ => (.error (.raised "OSError"), s)
  | .close _, s => (.ok (), s)
  | .replace source target, s =>
    match s source with
    | some entry =>
      if entry = .directory ∨ s target = some .directory then
        (.error (.raised "IsADirectoryError"), s)
      else (.ok (), if source = target then s
        else Function.update (Function.update s target (some entry)) source none)
    | none => (.error (.raised "FileNotFoundError"), s)
  | .pathExists path, s => ((s path).isSome, s)
  | .remove path, s =>
    match s path with
    | some entry =>
      if entry = .directory then (.error (.raised "IsADirectoryError"), s)
      else (.ok (), Function.update s path none)
    | none => (.error (.raised "FileNotFoundError"), s)

lemma made_prefixes {directory : Path} (h : Passable s directory) :
    Made directory s fun path => if path <+: directory then some .directory else s path := by
  intro path
  by_cases hp : path <+: directory
  · rcases h path ((List.mem_inits _ _).mpr hp) with hnone | hdir
    · exact Or.inr ⟨hnone, if_pos hp, hp⟩
    · exact Or.inl ((if_pos hp).trans hdir.symm)
  · exact Or.inl (if_neg hp)

/-- An obliging disk gives replies that a disk allows, so that its runs are runs of the model. -/
theorem obliging_answers {letters : List Char} (h : Drawable letters) (op : FileOp) (s : Disk) :
    Answers s op (obliging letters op s).1 (obliging letters op s).2 := by
  cases op with
  | makedirs directory =>
    by_cases hp : Passable s directory
    · simp only [obliging, if_pos hp]
      exact ⟨made_prefixes hp, fun path hpath => if_pos hpath⟩
    · simp only [obliging, if_neg hp]
      exact fun path => Or.inl rfl
  | mkstemp directory suffix =>
    by_cases hp : s directory = some .directory ∧
        s (directory ++ [tempName letters suffix]) = none
    · simp only [obliging, if_pos hp]
      exact ⟨⟨letters, h, rfl⟩, hp.1, hp.2, rfl⟩
    · simp only [obliging, if_neg hp]
      rfl
  | fdopen path => rfl
  | write path c =>
    cases hp : s path with
    | none =>
      simp only [obliging, hp]
      exact Or.inl rfl
    | some entry =>
      cases entry with
      | file text =>
        simp only [obliging, hp]
        exact ⟨text, hp, rfl⟩
      | directory =>
        simp only [obliging, hp]
        exact Or.inl rfl
      | unreadable e =>
        simp only [obliging, hp]
        exact Or.inl rfl
  | close path => rfl
  | replace source target =>
    cases hp : s source with
    | none =>
      simp only [obliging, hp]
      rfl
    | some entry =>
      by_cases hdir : entry = .directory ∨ s target = some .directory
      · simp only [obliging, hp, if_pos hdir]
        rfl
      · simp only [obliging, hp, if_neg hdir]
        rw [not_or] at hdir
        exact ⟨entry, hp, hdir.1, hdir.2, rfl⟩
  | pathExists path => exact ⟨rfl, rfl⟩
  | remove path =>
    cases hp : s path with
    | none =>
      simp only [obliging, hp]
      exact ⟨by simp [hp], rfl⟩
    | some entry =>
      by_cases hdir : entry = .directory
      · simp only [obliging, hp, if_pos hdir]
        exact ⟨by simp [hp, hdir], rfl⟩
      · simp only [obliging, hp, if_neg hdir]
        exact ⟨⟨entry, hp, hdir⟩, rfl⟩

/-- An obliging disk takes the whole of a text, however many writes that takes. -/
theorem outcome_writeAll (letters cs : List Char) {path : Path} {s : Disk} {text : List Char}
    (h : s path = some (.file text)) :
    (writeAll path cs).outcome (obliging letters) s =
      (.ok (), Function.update s path (some (.file (text ++ cs)))) := by
  induction cs generalizing s text with
  | nil =>
    rw [List.append_nil, ← h, Function.update_eq_self]
    rfl
  | cons c cs ih =>
    have hwrite : (perform (.write path c)).outcome (obliging letters) s =
        (.ok (), Function.update s path (some (.file (text ++ [c])))) := by
      rw [Program.outcome_perform]
      simp only [obliging, h]
    have hrest := ih (Function.update_self path (some (.file (text ++ [c]))) s)
    rw [Function.update_idem, List.append_assoc, List.singleton_append] at hrest
    exact (Program.outcome_andThen hwrite _).trans hrest

end InferenceControlPlane.Python
