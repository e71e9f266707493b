import InferenceControlPlane.Python.Files

/-!
# Overwriting a file

`open(path, "w")` empties the file before anything is written to it. Whatever happens next,
the file holds a beginning of the new text: the old one is gone.
-/
namespace InferenceControlPlane.Python

inductive OutputOp where
  | makedirs (directory : Path)
  | openEmpty (path : Path)
  | write (path : Path) (c : Char)
  | close (path : Path)

abbrev OutputReply (_ : OutputOp) : Type := Except PyErr Unit

abbrev OutputProgram (α : Type) : Type := Program OutputOp OutputReply α

/-- The program that is one call. -/
abbrev output (op : OutputOp) : OutputProgram (Except PyErr Unit) := Program.perform op

/-- The end of a text has been lost. -/
def Curtailed (path : Path) (more : List Char) (s s' : Disk) : Prop :=
  s' = s ∨ ∃ text part, s path = some (.file text) ∧ part <+: text ++ more ∧
    s' = Function.update s path (some (.file part))

/-- The replies that a disk allows, and what they make of it. -/
def OutputAnswers (s : Disk) (op : OutputOp) (r : OutputReply op) (s' : Disk) : Prop :=
  match op, r with
  | .makedirs directory, .ok () =>
    Made directory s s' ∧ ∀ path, path <+: directory → s' path = some .directory
  | .makedirs directory, .error _ => Made directory s s'
  | .openEmpty path, .ok () =>
    s path ≠ some .directory ∧ s' = Function.update s path (some (.file []))
  | .openEmpty _, .error _ => s' = s
  | .write path c, .ok () =>
    ∃ text, s path = some (.file text) ∧ s' = Function.update s path (some (.file (text ++ [c])))
  | .write path c, .error _ => Curtailed path [c] s s'
  | .close _, .ok () => s' = s
  | .close path, .error _ => Curtailed path [] s s'

/-- `fh.write(text)` -/
def writeText (path : Path) : List Char → OutputProgram (Except PyErr Unit)
  | [] => pure (.ok ())
  | c :: cs => (output (.write path c)).andThen fun _ => writeText path cs

/-- `with open(path, "w") as fh: fh.write(text)`, where making the text can fail too. -/
def overwrite (path : Path) (text : Except PyErr (List Char)) : OutputProgram (Except PyErr Unit) :=
  (output (.openEmpty path)).andThen fun _ =>
    (match text with
      | .ok text => writeText path text
      | .error e => pure (.error e)).ensuring (output (.close path))

/-- `os.makedirs(directory, exist_ok=True)`, and the file in the directory is overwritten. -/
def writeDocument (directory : Path) (name : String) (text : Except PyErr (List Char)) :
    OutputProgram (Except PyErr Unit) :=
  (output (.makedirs directory)).andThen fun _ => overwrite (directory ++ [name]) text

/-! ## What is left of a text -/

/-- The disk with a beginning of the text in the file at the path. -/
def Begun (base : Disk) (path : Path) (text : List Char) (s : Disk) : Prop :=
  ∃ part, part <+: text ∧ s = Function.update base path (some (.file part))

/-- What a disk comes to while a text is written to a file in a directory, by calls that may fail
or be killed: the file holds what it held or a beginning of the text, and elsewhere at most the
directories on the way have been made. -/
structure Torn (s : Disk) (directory : Path) (name : String) (text : List Char) (t : Disk) :
    Prop where
  others : ∀ path, path ≠ directory ++ [name] →
    t path = s path ∨ s path = none ∧ t path = some .directory ∧ path <+: directory
  here : t (directory ++ [name]) = s (directory ++ [name]) ∨
    ∃ part, part <+: text ∧ t (directory ++ [name]) = some (.file part)

variable {base s s' : Disk} {path : Path} {text : List Char}

lemma Begun.curtailed {done more : List Char} (hdone : done ++ more <+: text)
    (hs : Curtailed path more (Function.update base path (some (.file done))) s') :
    Begun base path text s' := by
  rcases hs with rfl | ⟨written, part, hwritten, hpart, rfl⟩
  · exact ⟨done, (List.prefix_append done more).trans hdone, rfl⟩
  · rw [Function.update_self] at hwritten
    cases hwritten
    exact ⟨part, hpart.trans hdone, Function.update_idem ..⟩

/-- Writing leaves a beginning of the text, and the whole of it at the end, at whichever write the
process is killed. -/
theorem guards_writeText {crash : Disk → Prop} (hcrash : ∀ s, Begun base path text s → crash s)
    (cs done : List Char) (hdone : done ++ cs = text) :
    (writeText path cs).Guards OutputAnswers crash
      (fun r s => Begun base path text s ∧
        (r = .ok () → s = Function.update base path (some (.file text))))
      (Function.update base path (some (.file done))) := by
  have hbegun : Begun base path text (Function.update base path (some (.file done))) :=
    ⟨done, hdone ▸ List.prefix_append done cs, rfl⟩
  induction cs generalizing done with
  | nil =>
    rw [List.append_nil] at hdone
    subst hdone
    exact ⟨hcrash _ hbegun, hbegun, fun _ => rfl⟩
  | cons c cs ih =>
    have hnext : done ++ [c] ++ cs = text := by
      rw [List.append_assoc, List.singleton_append]
      exact hdone
    have hone : done ++ [c] <+: text := hnext ▸ List.prefix_append _ cs
    have hwrite : (output (.write path c)).Guards OutputAnswers crash
        (fun r s => Begun base path text s ∧
          (r = .ok () → s = Function.update base path (some (.file (done ++ [c])))))
        (Function.update base path (some (.file done))) := by
      apply Program.guards_perform (hcrash _ hbegun)
      intro r s' hanswer
      cases r with
      | error e =>
        have hcurtailed := Begun.curtailed hone hanswer
        exact ⟨hcrash _ hcurtailed, hcurtailed, fun h => by cases h⟩
      | ok u =>
        obtain ⟨written, hwritten, rfl⟩ := hanswer
        rw [Function.update_self] at hwritten
        cases hwritten
        rw [Function.update_idem]
        have hlonger : Begun base path text
            (Function.update base path (some (.file (done ++ [c])))) := ⟨_, hone, rfl⟩
        exact ⟨hcrash _ hlonger, hlonger, fun _ => rfl⟩
    apply hwrite.andThen
    · intro u s _ hmid
      rw [hmid.2 rfl]
      exact ih (done ++ [c]) hnext ⟨_, hone, rfl⟩
    · intro e s _ hmid
      exact ⟨hmid.1, fun h => by cases h⟩

/-- The text that a file is given. -/
def written (text : Except PyErr (List Char)) : List Char := text.toOption.getD []

/-- Closing can lose the end of what was written. -/
lemma guards_close {crash : Disk → Prop} {text : List Char} {s : Disk}
    (hcrash : ∀ s, Begun base path text s → crash s) (hs : Begun base path text s) :
    (output (.close path)).Guards OutputAnswers crash
      (fun r t => r = .ok () → t = s) s := by
  apply Program.guards_perform (hcrash _ hs)
  intro r t hanswer
  cases r with
  | ok u =>
    cases hanswer
    exact ⟨hcrash _ hs, fun _ => rfl⟩
  | error e =>
    obtain ⟨part, hpart, rfl⟩ := hs
    have hcurtailed : Begun base path text t :=
      Begun.curtailed (by rw [List.append_nil]; exact hpart) hanswer
    exact ⟨hcrash _ hcurtailed, fun h => by cases h⟩

/-- An overwritten file holds a beginning of the new text, once it is open; until then, it holds
the old text. -/
theorem guards_overwrite {crash : Disk → Prop} {text : Except PyErr (List Char)}
    (hbase : crash base) (hcrash : ∀ s, Begun base path (written text) s → crash s) :
    (overwrite path text).Guards OutputAnswers crash
      (fun r s => r = .ok () →
        ∃ cs, text = .ok cs ∧ s = Function.update base path (some (.file cs))) base := by
  have hempty : Begun base path (written text) (Function.update base path (some (.file []))) :=
    ⟨[], List.nil_prefix, rfl⟩
  have hopen : (output (.openEmpty path)).Guards OutputAnswers crash
      (fun r s => r = .ok () → s = Function.update base path (some (.file []))) base := by
    apply Program.guards_perform hbase
    intro r s hanswer
    cases r with
    | ok u =>
      obtain ⟨-, rfl⟩ := hanswer
      exact ⟨hcrash _ hempty, fun _ => rfl⟩
    | error e =>
      cases hanswer
      exact ⟨hbase, fun h => by cases h⟩
  refine hopen.andThen (fun u s _ hs => ?_) fun e s _ _ h => by cases h
  rw [hs rfl]
  cases text with
  | error e =>
    have hfailed : (pure (.error e) : OutputProgram (Except PyErr Unit)).Guards OutputAnswers crash
        (fun r t => r = .error e ∧ Begun base path (written (.error e)) t)
        (Function.update base path (some (.file []))) := ⟨hcrash _ hempty, rfl, hempty⟩
    apply hfailed.ensuring
    rintro r t - ⟨rfl, ht⟩
    apply (guards_close hcrash ht).mono
    intro cleaned t' _ h
    cases cleaned with
    | ok u => cases h
    | error e' => cases h
  | ok cs =>
    apply (guards_writeText hcrash cs [] rfl).ensuring
    rintro r t - ⟨ht, hwhole⟩
    apply (guards_close hcrash ht).mono
    intro cleaned t' hclosed h
    cases cleaned with
    | ok u => exact ⟨cs, rfl, (hclosed rfl).trans (hwhole h)⟩
    | error e => cases h

lemma Torn.refl (s : Disk) (directory : Path) (name : String) (text : List Char) :
    Torn s directory name text s where
  others _ _ := Or.inl rfl
  here := Or.inl rfl

lemma Torn.of_made {directory : Path} (name : String) (text : List Char)
    (h : Made directory s s') : Torn s directory name text s' where
  others path _ := h path
  here := Or.inl (h.below name)

lemma Torn.of_begun {directory : Path} {name : String} {text : List Char}
    (h : Made directory s base) (hs : Begun base (directory ++ [name]) text s') :
    Torn s directory name text s' := by
  obtain ⟨part, hpart, rfl⟩ := hs
  refine ⟨fun path hpath => ?_, Or.inr ⟨part, hpart, Function.update_self ..⟩⟩
  rw [Function.update_of_ne hpath]
  exact h path

/-- A document is written as a whole, or leaves a beginning of itself, which no reader takes for a
document. -/
theorem guards_writeDocument (s : Disk) (directory : Path) (name : String)
    (text : Except PyErr (List Char)) :
    (writeDocument directory name text).Guards OutputAnswers
      (Torn s directory name (written text))
      (fun r t => r = .ok () →
        ∃ cs, text = .ok cs ∧ t (directory ++ [name]) = some (.file cs)) s := by
  have hmake : (output (.makedirs directory)).Guards OutputAnswers
      (Torn s directory name (written text)) (fun _ t => Made directory s t) s := by
    apply Program.guards_perform (Torn.refl s directory name _)
    intro r t hanswer
    cases r with
    | ok u => exact ⟨.of_made name _ hanswer.1, hanswer.1⟩
    | error e => exact ⟨.of_made name _ hanswer, hanswer⟩
  refine hmake.andThen (fun u base _ hbase => ?_) fun e t _ _ h => by cases h
  apply (guards_overwrite (.of_made name _ hbase) fun t ht => .of_begun hbase ht).mono
  intro r t hpost hr
  obtain ⟨cs, htext, rfl⟩ := hpost hr
  exact ⟨cs, htext, Function.update_self ..⟩

/-! ## A disk that takes everything -/

/-- Every call succeeds where it can. -/
def spacious : World OutputOp OutputReply Disk
  | .makedirs directory, s =>
    if Passable s directory then
      (.ok (), fun path => if path <+: directory then some .directory else s path)
    else (.error (.raised "FileExistsError"), s)
  | .openEmpty path, s =>
    if s path = some .directory then (.error (.raised "IsADirectoryError"), s)
    else (.ok (), Function.update s path (some (.file [])))
  | .write path c, s =>
    match s path with
    | some (.file text) => (.ok (), Function.update s path (some (.file (text ++ [c]))))
    | _ => (.error (.raised "OSError"), s)
  | .close _, s => (.ok (), s)

/-- A disk that takes everything gives replies that a disk allows, so that its runs are runs of
the model. -/
theorem spacious_answers (op : OutputOp) (s : Disk) :
    OutputAnswers s op (spacious op s).1 (spacious op s).2 := by
  cases op with
  | makedirs directory =>
    by_cases hp : Passable s directory
    · simp only [spacious, if_pos hp]
      exact ⟨made_prefixes hp, fun path hpath => if_pos hpath⟩
    · simp only [spacious, if_neg hp]
      exact fun path => Or.inl rfl
  | openEmpty path =>
    by_cases hp : s path = some .directory
    · simp only [spacious, if_pos hp]
      rfl
    · simp only [spacious, if_neg hp]
      exact ⟨hp, rfl⟩
  | write path c =>
    cases hp : s path with
    | none =>
      simp only [spacious, hp]
      exact Or.inl rfl
    | some entry =>
      cases entry with
      | file text =>
        simp only [spacious, hp]
        exact ⟨text, hp, rfl⟩
      | directory =>
        simp only [spacious, hp]
        exact Or.inl rfl
      | unreadable e =>
        simp only [spacious, hp]
        exact Or.inl rfl
  | close path => rfl

/-- The whole of a text is taken. -/
lemma outcome_writeText (cs : List Char) {path : Path} {s : Disk} {text : List Char}
    (h : s path = some (.file text)) :
    (writeText path cs).outcome spacious s =
      (.ok (), Function.update s path (some (.file (text ++ cs)))) := by
  induction cs generalizing s text with
  | nil =>
    rw [List.append_nil, ← h, Function.update_eq_self]
    rfl
  | cons c cs ih =>
    have hwrite : (output (.write path c)).outcome spacious s =
        (.ok (), Function.update s path (some (.file (text ++ [c])))) := by
      rw [Program.outcome_perform]
      simp only [spacious, h]
    have hrest := ih (Function.update_self path (some (.file (text ++ [c]))) s)
    rw [Function.update_idem, List.append_assoc, List.singleton_append] at hrest
    exact (Program.outcome_andThen hwrite _).trans hrest

/-- A document is written where its directory can be made and its path is no directory. -/
theorem outcome_writeDocument {s : Disk} {directory : Path} {name : String} (cs : List Char)
    (hpassable : Passable s directory) (hpath : s (directory ++ [name]) ≠ some .directory) :
    ∃ t, (writeDocument directory name (.ok cs)).outcome spacious s = (.ok (), t) := by
  have hmake : (output (.makedirs directory)).outcome spacious s =
      (.ok (), fun path => if path <+: directory then some .directory else s path) := by
    rw [Program.outcome_perform]
    simp only [spacious, if_pos hpassable]
  have hbelow : ¬ directory ++ [name] <+: directory := by
    intro h
    have hlength := h.length_le
    rw [List.length_append, List.length_singleton] at hlength
    omega
  have hopen : (output (.openEmpty (directory ++ [name]))).outcome spacious
      (fun path => if path <+: directory then some .directory else s path) = (.ok (),
        Function.update (fun path => if path <+: directory then some .directory else s path)
          (directory ++ [name]) (some (.file []))) := by
    rw [Program.outcome_perform]
    simp only [spacious, if_neg hbelow, if_neg hpath]
  have hwrite := outcome_writeText cs (Function.update_self (directory ++ [name])
    (some (.file [])) fun path => if path <+: directory then some .directory else s path)
  have hclose : ∀ t, (output (.close (directory ++ [name]))).outcome spacious t = (.ok (), t) :=
    fun t => rfl
  exact ⟨_, (Program.outcome_andThen hmake _).trans ((Program.outcome_andThen hopen _).trans
    (Program.outcome_ensuring hwrite (hclose _)))⟩

end InferenceControlPlane.Python
