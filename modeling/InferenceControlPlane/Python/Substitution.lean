import InferenceControlPlane.Python.Regex

/-!
# What a substitution leaves

The ends that a matcher finds are those of the texts that the expression describes in
their context. A substitution cuts a text into matches and gaps in which no match begins.
An inserted text that no match can touch leaves no new match behind.
-/
namespace InferenceControlPlane.Python.Regex

/-! ## The language of an expression -/

/-- The character before the position behind `w`. -/
def lastOf (p : Option Char) (w : List Char) : Option Char := w.getLast?.or p

@[simp] lemma lastOf_nil (p : Option Char) : lastOf p [] = p := rfl

lemma lastOf_append (p : Option Char) (u v : List Char) :
    lastOf p (u ++ v) = lastOf (lastOf p u) v := by
  rw [lastOf, lastOf, lastOf, List.getLast?_append, Option.or_assoc]

@[simp] lemma lastOf_cons (p : Option Char) (a : Char) (w : List Char) :
    lastOf p (a :: w) = lastOf (some a) w := lastOf_append p [a] w

/-- Repetitions that each consume something. -/
inductive Repeats (step : Option Char → List Char → List Char → Prop) :
    Option Char → List Char → List Char → Prop
  | nil (p : Option Char) (rest : List Char) : Repeats step p [] rest
  | cons {p : Option Char} {u v rest : List Char} (hu : u ≠ []) (h : step p u (v ++ rest))
      (hv : Repeats step (lastOf p u) v rest) : Repeats step p (u ++ v) rest

/-- The expression describes `w` between the character `p` and the text `rest`. -/
def Matches : Regex → Option Char → List Char → List Char → Prop
  | eps, _, w, _ => w = []
  | char q, _, w, _ => ∃ a, w = [a] ∧ q a = true
  | seq r s, p, w, rest =>
    ∃ u v, w = u ++ v ∧ r.Matches p u (v ++ rest) ∧ s.Matches (lastOf p u) v rest
  | alt r s, p, w, rest => r.Matches p w rest ∨ s.Matches p w rest
  | star r, p, w, rest => Repeats r.Matches p w rest
  | boundary isWord, p, w, rest => w = [] ∧ p.any isWord ≠ rest.head?.any isWord
  | eol, _, w, rest => w = [] ∧ (rest = [] ∨ rest = ['\n'])

lemma mem_starEnds {step : Cursor → List Cursor} {M : Option Char → List Char → List Char → Prop}
    (hstep : ∀ p rest p' rest', (⟨p', rest'⟩ : Cursor) ∈ step ⟨p, rest⟩ ↔
      ∃ w, rest = w ++ rest' ∧ p' = lastOf p w ∧ M p w rest') (n : ℕ) {p p' : Option Char}
    {rest rest' : List Char} (hn : rest.length ≤ n) :
    (⟨p', rest'⟩ : Cursor) ∈ starEnds step n ⟨p, rest⟩ ↔
      ∃ w, rest = w ++ rest' ∧ p' = lastOf p w ∧ Repeats M p w rest' := by
  induction n generalizing p rest with
  | zero =>
    have hnil : rest = [] := List.eq_nil_of_length_eq_zero (Nat.le_zero.mp hn)
    subst hnil
    rw [starEnds, List.mem_singleton]
    constructor
    · intro h
      cases h
      exact ⟨[], rfl, rfl, .nil _ _⟩
    · intro h
      obtain ⟨w, hw, hp, -⟩ := h
      obtain ⟨rfl, rfl⟩ := List.append_eq_nil_iff.mp hw.symm
      rw [hp, lastOf_nil]
  | succ n ih =>
    rw [starEnds, List.mem_append, List.mem_flatMap, List.mem_singleton]
    constructor
    · intro h
      rcases h with ⟨mid, hmid, hend⟩ | h
      · obtain ⟨q, between⟩ := mid
        obtain ⟨hmem, hshort⟩ := List.mem_filter.mp hmid
        obtain ⟨u, hu, hq, hM⟩ := (hstep _ _ _ _).mp hmem
        have hlength : between.length < rest.length := of_decide_eq_true hshort
        obtain ⟨v, hv, hp, hrest⟩ := (ih (by omega)).mp hend
        have hne : u ≠ [] := by
          intro hnil
          rw [hu, hnil] at hlength
          exact absurd hlength (Nat.lt_irrefl _)
        subst hu hv hq hp
        exact ⟨u ++ v, (List.append_assoc _ _ _).symm, (lastOf_append _ _ _).symm,
          .cons hne hM hrest⟩
      · cases h
        exact ⟨[], rfl, rfl, .nil _ _⟩
    · intro h
      obtain ⟨w, hw, hp, hrepeats⟩ := h
      cases hrepeats with
      | nil =>
        right
        rw [hw, hp, List.nil_append, lastOf_nil]
      | @cons _ u v _ hne hM hv =>
        left
        have hlength : (v ++ rest').length < rest.length := by
          have hpos := List.length_pos_of_ne_nil hne
          rw [hw]
          simp only [List.length_append]
          omega
        refine ⟨⟨lastOf p u, v ++ rest'⟩, List.mem_filter.mpr ⟨?_, decide_eq_true hlength⟩, ?_⟩
        · exact (hstep _ _ _ _).mpr ⟨u, by rw [hw, List.append_assoc], rfl, hM⟩
        · exact (ih (by omega)).mpr ⟨v, rfl, by rw [hp, lastOf_append], hv⟩

/-- The ends of the matches at a position are those of the texts that the expression
describes there. -/
theorem mem_ends {r : Regex} {p p' : Option Char} {rest rest' : List Char} :
    (⟨p', rest'⟩ : Cursor) ∈ r.ends ⟨p, rest⟩ ↔
      ∃ w, rest = w ++ rest' ∧ p' = lastOf p w ∧ r.Matches p w rest' := by
  induction r generalizing p p' rest rest' with
  | eps =>
    rw [ends, List.mem_singleton]
    constructor
    · intro h
      cases h
      exact ⟨[], rfl, rfl, rfl⟩
    · intro h
      obtain ⟨w, hw, hp, rfl⟩ := h
      rw [hw, hp, List.nil_append, lastOf_nil]
  | char q =>
    rw [ends]
    cases rest with
    | nil =>
      refine iff_of_false List.not_mem_nil ?_
      intro h
      obtain ⟨w, hw, -, a, rfl, -⟩ := h
      cases hw
    | cons a rest =>
      dsimp only
      constructor
      · intro h
        split_ifs at h with hq
        · cases List.mem_singleton.mp h
          exact ⟨[a], rfl, rfl, a, rfl, hq⟩
        · cases h
      · intro h
        obtain ⟨w, hw, hp, b, rfl, hq⟩ := h
        obtain ⟨rfl, rfl⟩ := List.cons.inj hw
        rw [if_pos hq, hp]
        exact List.mem_singleton.mpr rfl
  | seq r s ihr ihs =>
    rw [ends, List.mem_flatMap]
    constructor
    · intro h
      obtain ⟨⟨q, between⟩, hr, hs⟩ := h
      obtain ⟨u, hu, hq, hM⟩ := ihr.mp hr
      obtain ⟨v, hv, hp, hM'⟩ := ihs.mp hs
      subst hu hv hq hp
      exact ⟨u ++ v, (List.append_assoc _ _ _).symm, (lastOf_append _ _ _).symm, u, v, rfl,
        hM, hM'⟩
    · intro h
      obtain ⟨w, hw, hp, u, v, rfl, hM, hM'⟩ := h
      refine ⟨⟨lastOf p u, v ++ rest'⟩, ihr.mpr ⟨u, ?_, rfl, hM⟩, ihs.mpr ⟨v, rfl, ?_, hM'⟩⟩
      · rw [hw, List.append_assoc]
      · rw [hp, lastOf_append]
  | alt r s ihr ihs =>
    rw [ends, List.mem_append, ihr, ihs, ← exists_or]
    refine exists_congr fun w => ?_
    rw [← and_or_left, ← and_or_left]
    rfl
  | star r ih =>
    rw [ends]
    exact mem_starEnds (fun _ _ _ _ => ih) _ (Nat.le_refl _)
  | boundary isWord =>
    rw [ends]
    constructor
    · intro h
      split_ifs at h with hb
      · cases List.mem_singleton.mp h
        exact ⟨[], rfl, rfl, rfl, by simpa using hb⟩
      · cases h
    · intro h
      obtain ⟨w, hw, hp, rfl, hb⟩ := h
      rw [List.nil_append] at hw
      subst hw hp
      rw [if_pos (by simpa using hb)]
      exact List.mem_singleton.mpr rfl
  | eol =>
    rw [ends]
    constructor
    · intro h
      split_ifs at h with heol
      · cases List.mem_singleton.mp h
        exact ⟨[], rfl, rfl, rfl, heol⟩
      · cases h
    · intro h
      obtain ⟨w, hw, hp, rfl, heol⟩ := h
      rw [List.nil_append] at hw
      subst hw hp
      rw [if_pos heol]
      exact List.mem_singleton.mpr rfl

/-- Nothing is found exactly where nothing is described: the search for a match misses none. -/
theorem ends_eq_nil_iff {r : Regex} {p : Option Char} {rest : List Char} :
    r.ends ⟨p, rest⟩ = [] ↔ ∀ w rest', rest = w ++ rest' → ¬r.Matches p w rest' := by
  rw [List.eq_nil_iff_forall_not_mem]
  constructor
  · intro h w rest' hw hM
    exact h ⟨lastOf p w, rest'⟩ (mem_ends.mpr ⟨w, hw, rfl, hM⟩)
  · intro h d hd
    obtain ⟨w, hw, -, hM⟩ := mem_ends.mp (show (⟨d.prev, d.rest⟩ : Cursor) ∈ _ from hd)
    exact h w d.rest hw hM

/-! ## Expressions without context -/

/-- No word boundaries and no end of line. -/
def IsPlain : Regex → Prop
  | eps => True
  | char _ => True
  | seq r s => r.IsPlain ∧ s.IsPlain
  | alt r s => r.IsPlain ∧ s.IsPlain
  | star r => r.IsPlain
  | boundary _ => False
  | eol => False

/-- All characters that the expression names satisfy `P`. -/
def Over (P : Char → Prop) : Regex → Prop
  | char q => ∀ a, q a = true → P a
  | seq r s => r.Over P ∧ s.Over P
  | alt r s => r.Over P ∧ s.Over P
  | star r => r.Over P
  | _ => True

@[simp] lemma over_eps (P : Char → Prop) : eps.Over P := trivial

@[simp] lemma over_seq {P : Char → Prop} {r s : Regex} :
    (seq r s).Over P ↔ r.Over P ∧ s.Over P := Iff.rfl

@[simp] lemma over_alt {P : Char → Prop} {r s : Regex} :
    (alt r s).Over P ↔ r.Over P ∧ s.Over P := Iff.rfl

@[simp] lemma over_star {P : Char → Prop} {r : Regex} : (star r).Over P ↔ r.Over P := Iff.rfl

/-- A plain expression describes a text wherever it stands, as it has no boundary that looks at
its surroundings. -/
theorem Matches.elsewhere {r : Regex} (hplain : r.IsPlain) {p : Option Char}
    {w rest : List Char} (h : r.Matches p w rest) (p' : Option Char) (rest' : List Char) :
    r.Matches p' w rest' := by
  induction r generalizing p w rest p' rest' with
  | eps => exact h
  | char q => exact h
  | seq r s ihr ihs =>
    obtain ⟨u, v, hw, hr, hs⟩ := h
    exact ⟨u, v, hw, ihr hplain.1 hr _ _, ihs hplain.2 hs _ _⟩
  | alt r s ihr ihs =>
    rcases h with hr | hs
    · exact Or.inl (ihr hplain.1 hr _ _)
    · exact Or.inr (ihs hplain.2 hs _ _)
  | star r ih =>
    have hmove : ∀ {p w rest}, Repeats r.Matches p w rest →
        ∀ p' rest', Repeats r.Matches p' w rest' := by
      intro p w rest hrepeats
      induction hrepeats with
      | nil => exact fun p' rest' => .nil p' rest'
      | cons hu hstep _ ihv => exact fun p' rest' => .cons hu (ih hplain hstep _ _) (ihv _ _)
    exact hmove h p' rest'
  | boundary isWord => exact hplain.elim
  | eol => exact hplain.elim

/-- The described texts consist of the characters that are named. -/
theorem Matches.over {P : Char → Prop} {r : Regex} (hover : r.Over P) {p : Option Char}
    {w rest : List Char} (h : r.Matches p w rest) : ∀ a ∈ w, P a := by
  induction r generalizing p w rest with
  | eps =>
    cases h
    exact fun a ha => absurd ha List.not_mem_nil
  | char q =>
    obtain ⟨a, rfl, hq⟩ := h
    intro b hb
    rw [List.mem_singleton.mp hb]
    exact hover a hq
  | seq r s ihr ihs =>
    obtain ⟨u, v, rfl, hr, hs⟩ := h
    intro a ha
    rcases List.mem_append.mp ha with hu | hv
    · exact ihr hover.1 hr a hu
    · exact ihs hover.2 hs a hv
  | alt r s ihr ihs =>
    rcases h with hr | hs
    · exact ihr hover.1 hr
    · exact ihs hover.2 hs
  | star r ih =>
    have hall : ∀ {p w rest}, Repeats r.Matches p w rest → ∀ a ∈ w, P a := by
      intro p w rest hrepeats
      induction hrepeats with
      | nil => exact fun a ha => absurd ha List.not_mem_nil
      | cons hu hstep _ ihv =>
        intro a ha
        rcases List.mem_append.mp ha with hu' | hv'
        · exact ih hover hstep a hu'
        · exact ihv a hv'
    exact hall h
  | boundary isWord =>
    obtain ⟨rfl, -⟩ := h
    exact fun a ha => absurd ha List.not_mem_nil
  | eol =>
    obtain ⟨rfl, -⟩ := h
    exact fun a ha => absurd ha List.not_mem_nil

/-- A sequence of expressions describes the texts that their parts describe in turn. -/
theorem matches_concat_append {rs ss : List Regex} {p : Option Char} {w rest : List Char} :
    (concat (rs ++ ss)).Matches p w rest ↔
      ∃ u v, w = u ++ v ∧ (concat rs).Matches p u (v ++ rest) ∧
        (concat ss).Matches (lastOf p u) v rest := by
  induction rs generalizing p w with
  | nil =>
    constructor
    · exact fun h => ⟨[], w, rfl, rfl, h⟩
    · intro h
      obtain ⟨u, v, hw, rfl, hs⟩ := h
      rw [hw]
      exact hs
  | cons r rs ih =>
    constructor
    · intro h
      obtain ⟨u, v, rfl, hr, hrest⟩ := h
      obtain ⟨u', v', rfl, hrs, hss⟩ := ih.mp hrest
      refine ⟨u ++ u', v', (List.append_assoc _ _ _).symm, ⟨u, u', rfl, ?_, hrs⟩, ?_⟩
      · rw [← List.append_assoc]
        exact hr
      · rw [lastOf_append]
        exact hss
    · intro h
      obtain ⟨u, v, rfl, ⟨u₁, u₂, rfl, hr, hrs⟩, hss⟩ := h
      refine ⟨u₁, u₂ ++ v, List.append_assoc _ _ _, ?_, ih.mpr ⟨u₂, v, rfl, hrs, ?_⟩⟩
      · rw [List.append_assoc]
        exact hr
      · rw [← lastOf_append]
        exact hss

lemma matches_concat_singleton {r : Regex} {p : Option Char} {w rest : List Char} :
    (concat [r]).Matches p w rest ↔ r.Matches p w rest := by
  constructor
  · intro h
    obtain ⟨u, v, rfl, hr, rfl⟩ := h
    simpa using hr
  · exact fun h => ⟨w, [], (List.append_nil w).symm, h, rfl⟩

/-- `r{n}` of a class of characters. -/
lemma matches_times_char {q : Char → Bool} {n : ℕ} {p : Option Char} {w rest : List Char}
    (h : (times (char q) n).Matches p w rest) : w.length = n ∧ ∀ a ∈ w, q a = true := by
  induction n generalizing p w with
  | zero =>
    cases h
    exact ⟨rfl, fun a ha => absurd ha List.not_mem_nil⟩
  | succ n ih =>
    obtain ⟨u, v, rfl, ⟨a, rfl, hq⟩, hrest⟩ := h
    obtain ⟨hlength, hall⟩ := ih hrest
    exact ⟨by rw [List.length_append, hlength, List.length_singleton, Nat.add_comm],
      List.forall_mem_cons.mpr ⟨hq, hall⟩⟩

@[simp] lemma isPlain_concat {rs : List Regex} :
    (concat rs).IsPlain ↔ ∀ r ∈ rs, r.IsPlain := by
  induction rs with
  | nil => simp [concat, IsPlain]
  | cons r rs ih => exact (and_congr Iff.rfl ih).trans List.forall_mem_cons.symm

@[simp] lemma over_concat {P : Char → Prop} {rs : List Regex} :
    (concat rs).Over P ↔ ∀ r ∈ rs, r.Over P := by
  induction rs with
  | nil => simp [concat]
  | cons r rs ih => exact (and_congr Iff.rfl ih).trans List.forall_mem_cons.symm

@[simp] lemma isPlain_lit (text : String) : (lit text).IsPlain := by
  rw [lit, isPlain_concat]
  intro r hr
  obtain ⟨a, -, rfl⟩ := List.mem_map.mp hr
  trivial

lemma over_lit {P : Char → Prop} {text : String} (h : ∀ a ∈ text.toList, P a) :
    (lit text).Over P := by
  rw [lit, over_concat]
  intro r hr
  obtain ⟨a, ha, rfl⟩ := List.mem_map.mp hr
  intro b hb
  rw [eq_of_beq hb]
  exact h a ha

/-- A class of characters that leaves out the ones that `P` leaves out. -/
lemma over_char {P : Char → Prop} {q : Char → Bool} (h : ∀ a, ¬P a → q a = false) :
    (char q).Over P := by
  intro a ha
  by_contra hP
  rw [h a hP] at ha
  cases ha

/-- A literal describes itself. -/
lemma matches_lit {text : String} {p : Option Char} {w rest : List Char}
    (h : (lit text).Matches p w rest) : w = text.toList := by
  rw [lit] at h
  generalize text.toList = cs at h ⊢
  induction cs generalizing p w with
  | nil => exact h
  | cons a as ih =>
    obtain ⟨u, v, rfl, ⟨b, rfl, hb⟩, hrest⟩ := h
    rw [eq_of_beq hb, ih hrest]
    rfl

/-! ## Texts without a match -/

/-- No match begins anywhere in the text. -/
def Absent (r : Regex) (p : Option Char) (text : List Char) : Prop :=
  ∀ x y, text = x ++ y → r.ends ⟨lastOf p x, y⟩ = []

lemma absent_nil {r : Regex} {p : Option Char} : r.Absent p [] ↔ r.ends ⟨p, []⟩ = [] := by
  constructor
  · exact fun h => h [] [] rfl
  · intro h x y hxy
    obtain ⟨rfl, rfl⟩ := List.append_eq_nil_iff.mp hxy.symm
    exact h

lemma absent_cons {r : Regex} {p : Option Char} {a : Char} {text : List Char} :
    r.Absent p (a :: text) ↔ r.ends ⟨p, a :: text⟩ = [] ∧ r.Absent (some a) text := by
  constructor
  · intro h
    refine ⟨h [] _ rfl, fun x y hxy => ?_⟩
    rw [← lastOf_cons p a x]
    exact h (a :: x) y (congrArg (a :: ·) hxy)
  · intro h x y hxy
    cases x with
    | nil =>
      subst hxy
      exact h.1
    | cons b x =>
      obtain ⟨rfl, hrest⟩ := List.cons.inj hxy
      rw [lastOf_cons]
      exact h.2 x y hrest

lemma Absent.drop {r : Regex} {p : Option Char} {u text : List Char}
    (h : r.Absent p (u ++ text)) : r.Absent (lastOf p u) text := by
  intro x y hxy
  rw [← lastOf_append]
  exact h (u ++ x) y (by rw [hxy, List.append_assoc])

/-- Without a match a substitution changes nothing, from which its idempotence follows. -/
theorem subFrom_of_absent {r : Regex} {repl : List Char} {n : ℕ} {p : Option Char}
    {text : List Char} (h : r.Absent p text) : subFrom r repl n ⟨p, text⟩ = text := by
  induction n generalizing p text with
  | zero => rfl
  | succ n ih =>
    have hnone := h [] text rfl
    rw [lastOf_nil] at hnone
    rw [subFrom, hnone]
    cases text with
    | nil => rfl
    | cons a text => exact congrArg (a :: ·) (ih (absent_cons.mp h).2)

theorem sub_of_absent {r : Regex} {repl text : String} (h : r.Absent none text.toList) :
    r.sub repl text = text := by
  rw [sub, subFrom_of_absent h, String.ofList_toList]

/-! ## Matches and gaps -/

/-- The text from a cursor on, with the matches replaced: the relation between a text and what
`re.sub` makes of it, by which the result's own matches are found. -/
inductive Substituted (r : Regex) (repl : List Char) : Cursor → List Char → Prop
  | done {p : Option Char} (h : r.ends ⟨p, []⟩ = []) : Substituted r repl ⟨p, []⟩ []
  | skip {p : Option Char} {a : Char} {rest out : List Char} (h : r.ends ⟨p, a :: rest⟩ = [])
      (hrest : Substituted r repl ⟨some a, rest⟩ out) :
      Substituted r repl ⟨p, a :: rest⟩ (a :: out)
  | replace {c e : Cursor} {out : List Char} (h : e ∈ r.ends c)
      (hrest : Substituted r repl e out) : Substituted r repl c (repl ++ out)

/-- An end of a match that is not empty lies further on. -/
lemma shorter_of_matches {r : Regex} (hne : ∀ p w rest, r.Matches p w rest → w ≠ []) (c : Cursor) :
    ∀ e ∈ r.ends c, e.rest.length < c.rest.length := by
  intro e he
  obtain ⟨w, hw, -, hmatch⟩ :=
    mem_ends.mp (show (⟨e.prev, e.rest⟩ : Cursor) ∈ r.ends ⟨c.prev, c.rest⟩ from he)
  have hpos := List.length_pos_of_ne_nil (hne _ _ _ hmatch)
  rw [hw, List.length_append]
  omega

/-- If matches consume something, the substitution is made of matches and gaps. -/
theorem substituted_subFrom {r : Regex} {repl : List Char}
    (hprogress : ∀ c, ∀ e ∈ r.ends c, e.rest.length < c.rest.length) (n : ℕ) (c : Cursor)
    (hn : c.rest.length < n) : Substituted r repl c (subFrom r repl n c) := by
  induction n generalizing c with
  | zero => exact absurd hn (Nat.not_lt_zero _)
  | succ n ih =>
    rw [subFrom]
    cases hends : r.ends c with
    | nil =>
      obtain ⟨p, rest⟩ := c
      cases rest with
      | nil => exact .done hends
      | cons a rest => exact .skip hends (ih _ (Nat.lt_of_succ_lt_succ hn))
    | cons e es =>
      have hmem : e ∈ r.ends c := hends ▸ List.mem_cons_self
      have hlt := hprogress c e hmem
      dsimp only [List.head?_cons]
      rw [if_pos hlt]
      exact .replace hmem (ih e (by omega))

/-- A text of the result that does not touch a replacement stands in a gap, and so stood in the
original. -/
theorem Substituted.gap {r : Regex} {o : Char} {repl : List Char} {c : Cursor}
    {w y : List Char} (h : Substituted r (o :: repl) c (w ++ y)) (ho : o ∉ w) :
    ∃ rest, c.rest = w ++ rest ∧ Substituted r (o :: repl) ⟨lastOf c.prev w, rest⟩ y := by
  induction w generalizing c with
  | nil => exact ⟨c.rest, rfl, h⟩
  | cons a w ih =>
    rw [List.mem_cons, not_or] at ho
    generalize hout : a :: w ++ y = out at h
    cases h with
    | done => cases hout
    | skip hends hrest =>
      obtain ⟨rfl, rfl⟩ := List.cons.inj hout
      obtain ⟨rest, hgap, hsub⟩ := ih hrest ho.2
      refine ⟨rest, congrArg (a :: ·) hgap, ?_⟩
      rw [lastOf_cons]
      exact hsub
    | replace => exact absurd (List.cons.inj hout).1.symm ho.1

/-! ## Replacements that no match touches -/

/-- The replacement stands between two characters that no match contains, and every match
has a character that the replacement has not. -/
structure Sealed (r : Regex) (o : Char) (middle : List Char) (close : Char) : Prop where
  opening : ∀ p w rest, r.Matches p w rest → o ∉ w
  closing : ∀ p w rest, r.Matches p w rest → close ∉ w
  foreign : ∀ p w rest, r.Matches p w rest → ∃ a ∈ w, a ∉ o :: (middle ++ [close])

/-- No match begins in a replacement that a text without matches follows: its brackets belong to
no match. -/
theorem Sealed.absent_append {r : Regex} {o close : Char} {middle : List Char}
    (h : r.Sealed o middle close) {p : Option Char} {out : List Char}
    (hout : r.Absent (some close) out) : r.Absent p (o :: (middle ++ [close]) ++ out) := by
  have hlast : lastOf p (o :: (middle ++ [close])) = some close := by
    rw [lastOf_cons, lastOf_append]
    rfl
  intro x y hxy
  rcases List.append_eq_append_iff.mp hxy with ⟨u, rfl, rfl⟩ | ⟨t, hrepl, rfl⟩
  · rw [lastOf_append, hlast]
    exact hout u y rfl
  rw [ends_eq_nil_iff]
  intro w rest hw hmatch
  obtain ⟨a, ha, hforeign⟩ := h.foreign _ _ _ hmatch
  rcases List.append_eq_append_iff.mp hw with ⟨u, rfl, -⟩ | ⟨u, rfl, -⟩
  · -- the match goes on past the replacement, or is all of it that follows
    cases ht : t.getLast? with
    | none =>
      rw [List.getLast?_eq_none_iff] at ht
      subst ht
      rw [List.append_nil] at hrepl
      rw [← hrepl, hlast] at hmatch
      have hnil := hout [] (u ++ rest) (by simpa using hw)
      exact ends_eq_nil_iff.mp hnil u rest rfl (by simpa using hmatch)
    | some b =>
      have hb : b = close := by
        have hend := congrArg List.getLast? hrepl
        rw [List.getLast?_append, ht, ← List.cons_append, List.getLast?_concat] at hend
        exact (Option.some.inj hend).symm
      subst hb
      exact h.closing _ _ _ hmatch (List.mem_append_left _ (List.mem_of_getLast? ht))
  · exact hforeign (hrepl ▸ List.mem_append_right _ (List.mem_append_left _ ha))

/-- What `sub` returns is made of replaced matches, and of characters at which no match begins. -/
theorem substituted_sub {r : Regex} (repl : String)
    (hprogress : ∀ c, ∀ e ∈ r.ends c, e.rest.length < c.rest.length) (text : String) :
    Substituted r repl.toList ⟨none, text.toList⟩ (r.sub repl text).toList := by
  rw [sub, String.toList_ofList]
  exact substituted_subFrom hprogress _ _ (Nat.lt_succ_self _)

/-- Where the gaps of a substitution leave no match behind, neither does the whole. -/
theorem Substituted.absent {r r' : Regex} {o close : Char} {middle : List Char}
    (hsealed : r'.Sealed o middle close) (Inv : Option Char → Cursor → Prop)
    (hskip : ∀ q p a rest, Inv q ⟨p, a :: rest⟩ → Inv (some a) ⟨some a, rest⟩)
    (hreplace : ∀ q c e, Inv q c → e ∈ r.ends c → Inv (some close) e)
    (hgap : ∀ q c out, Inv q c → r.ends c = [] →
      Substituted r (o :: (middle ++ [close])) c out → r'.ends ⟨q, out⟩ = [])
    {c : Cursor} {out : List Char} (h : Substituted r (o :: (middle ++ [close])) c out)
    {q : Option Char} (hq : Inv q c) : r'.Absent q out := by
  induction h generalizing q with
  | done hends => exact absent_nil.mpr (hgap q _ _ hq hends (.done hends))
  | @skip p a rest out hends hrest ih =>
    exact absent_cons.mpr ⟨hgap q _ _ hq hends (.skip hends hrest), ih (hskip _ _ _ _ hq)⟩
  | replace hmem _ ih => exact hsealed.absent_append (ih (hreplace _ _ _ hq hmem))

/-- A plain expression that has no match at a cursor has none in the gap of the result. -/
theorem Substituted.ends_of_plain {r r' : Regex} {o close : Char} {middle repl : List Char}
    (hsealed : r'.Sealed o middle close) (hplain : r'.IsPlain) {c : Cursor} {out : List Char}
    (h : Substituted r (o :: repl) c out) (hends : r'.ends c = []) (q : Option Char) :
    r'.ends ⟨q, out⟩ = [] := by
  rw [ends_eq_nil_iff]
  intro w y hout hmatch
  subst hout
  obtain ⟨rest, hrest, -⟩ := h.gap (hsealed.opening _ _ _ hmatch)
  exact ends_eq_nil_iff.mp hends w rest hrest (hmatch.elsewhere hplain _ _)

end InferenceControlPlane.Python.Regex
