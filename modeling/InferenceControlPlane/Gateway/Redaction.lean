import InferenceControlPlane.Python.Substitution
import InferenceControlPlane.Gateway.Router

/-!
# Redaction leaves nothing to redact

No match contains a bracket, so none reaches into a placeholder, and a placeholder opens
no word boundary that the text it replaced had closed: a number ends before a character
that is not part of a word.
-/
namespace InferenceControlPlane.Gateway
open Python Regex

/-- `[REDACTED_EMAIL]` between its brackets. -/
def emailLabel : List Char := "REDACTED_EMAIL".toList

/-- `[REDACTED_PHONE]` between its brackets. -/
def phoneLabel : List Char := "REDACTED_PHONE".toList

/-! ## E-mail addresses -/

lemma emailPattern_plain : emailPattern.IsPlain := by
  simp [emailPattern, plus, times, IsPlain]

/-- A character that is no bracket. -/
abbrev NoBracket (a : Char) : Prop := a ≠ '[' ∧ a ≠ ']'

lemma over_noBracket {q : Char → Bool} (hopen : q '[' = false) (hclose : q ']' = false) :
    (char q).Over NoBracket := by
  apply over_char
  intro a ha
  by_cases h : a = '['
  · rwa [h]
  · have h' : a = ']' := by
      by_contra hne
      exact ha ⟨h, hne⟩
    rwa [h']

lemma lit_over_noBracket {text : String}
    (h : (text.toList.all fun a => a != '[' && a != ']') = true) : (lit text).Over NoBracket := by
  apply over_lit
  intro a ha
  have hne := List.all_eq_true.mp h a ha
  simpa using hne

/-- An address contains no brackets. -/
lemma emailPattern_over : emailPattern.Over NoBracket := by
  have hletter : (char isAsciiLetter).Over NoBracket := over_noBracket (by decide) (by decide)
  have hlocal := over_noBracket (q := fun c => isAsciiLetter c || isAsciiDigit c ||
    c ∈ ['.', '_', '%', '+', '-']) (by decide) (by decide)
  have hdomain := over_noBracket (q := fun c => isAsciiLetter c || isAsciiDigit c ||
    c ∈ ['.', '-']) (by decide) (by decide)
  have hat : (lit "@").Over NoBracket := lit_over_noBracket rfl
  have hdot : (lit ".").Over NoBracket := lit_over_noBracket rfl
  simp only [emailPattern, plus, times, over_concat, List.forall_mem_cons, over_seq, over_star,
    over_eps, hletter, hlocal, hdomain, hat, hdot, and_self, List.not_mem_nil, false_implies,
    implies_true]

/-- An address contains an at sign. -/
lemma at_mem_email {p : Option Char} {w rest : List Char} (h : emailPattern.Matches p w rest) :
    '@' ∈ w := by
  obtain ⟨u, v, rfl, -, u', v', rfl, hat, -⟩ := h
  rw [matches_lit hat]
  exact List.mem_append_right _ (List.mem_append_left _ (by decide))

/-- No address touches a placeholder. -/
lemma emailPattern_sealed {middle : List Char} (h : '@' ∉ middle) :
    emailPattern.Sealed '[' middle ']' where
  opening _ _ _ hmatch hmem := (hmatch.over emailPattern_over _ hmem).1 rfl
  closing _ _ _ hmatch hmem := (hmatch.over emailPattern_over _ hmem).2 rfl
  foreign _ _ _ hmatch := by
    refine ⟨'@', at_mem_email hmatch, ?_⟩
    simp [h]

/-! ## Phone numbers -/

/-- `\\w` as it is documented: decimal digits are word characters, and of the ASCII
characters the letters, the digits and the underscore. -/
structure WordClass [Runtime] : Prop where
  decimal : ∀ a, Runtime.isDecimal a = true → Runtime.isWord a = true
  ascii : ∀ a : Char, a.toNat < 128 → Runtime.isWord a = (a.isAlphanum || a == '_')

section
variable [Runtime]

/-- The phone pattern between its word boundaries, up to the last four digits. -/
def phoneBody : List Regex :=
  [opt (concat [lit "+", seq (char Runtime.isDecimal) (upTo (char Runtime.isDecimal) 1),
      char isSpace]),
    opt (lit "("), times (char Runtime.isDecimal) 3, opt (lit ")"),
    opt (char fun c => isSpace c || c == '.' || c == '-'),
    times (char Runtime.isDecimal) 3, opt (char fun c => isSpace c || c == '.' || c == '-')]

/-- The phone pattern between its word boundaries. -/
def phoneCore : Regex := concat (phoneBody ++ [times (char Runtime.isDecimal) 4])

theorem matches_phone_iff {p : Option Char} {w rest : List Char} :
    phonePattern.Matches p w rest ↔
      p.any Runtime.isWord ≠ (w ++ rest).head?.any Runtime.isWord ∧
        phoneCore.Matches p w rest ∧
        (lastOf p w).any Runtime.isWord ≠ rest.head?.any Runtime.isWord := by
  have hpattern : phonePattern = concat ([boundary Runtime.isWord] ++
      ((phoneBody ++ [times (char Runtime.isDecimal) 4]) ++ [boundary Runtime.isWord])) := rfl
  rw [hpattern, matches_concat_append]
  constructor
  · intro h
    obtain ⟨v, v', rfl, hv, hrest⟩ := h
    obtain ⟨rfl, hstart⟩ := matches_concat_singleton.mp hv
    obtain ⟨u, u', rfl, hcore, hu'⟩ := matches_concat_append.mp hrest
    obtain ⟨rfl, hend⟩ := matches_concat_singleton.mp hu'
    simp only [List.nil_append, List.append_nil, lastOf_nil] at hstart hcore hend ⊢
    exact ⟨hstart, hcore, hend⟩
  · intro h
    obtain ⟨hstart, hcore, hend⟩ := h
    refine ⟨[], w, rfl, matches_concat_singleton.mpr ⟨rfl, hstart⟩,
      matches_concat_append.mpr ⟨w, [], (List.append_nil w).symm, hcore,
        matches_concat_singleton.mpr ⟨rfl, hend⟩⟩⟩

lemma phoneCore_plain : phoneCore.IsPlain := by
  simp [phoneCore, phoneBody, opt, times, upTo, IsPlain]

lemma isDecimal_eq_false {a : Char} (hascii : a.toNat < 128) (hdigit : a.isDigit = false) :
    Runtime.isDecimal a = false := (Runtime.isDecimal_ascii a hascii).trans hdigit

/-- A phone number contains no brackets. -/
lemma phoneCore_over : phoneCore.Over NoBracket := by
  have hdigit : (char Runtime.isDecimal).Over NoBracket :=
    over_noBracket (isDecimal_eq_false (by decide) (by decide))
      (isDecimal_eq_false (by decide) (by decide))
  have hspace : (char isSpace).Over NoBracket := over_noBracket (by decide) (by decide)
  have hseparator := over_noBracket (q := fun c => isSpace c || c == '.' || c == '-')
    (by decide) (by decide)
  have hplus : (lit "+").Over NoBracket := lit_over_noBracket rfl
  have hopen : (lit "(").Over NoBracket := lit_over_noBracket rfl
  have hclose : (lit ")").Over NoBracket := lit_over_noBracket rfl
  simp [phoneCore, phoneBody, opt, times, upTo, hdigit, hspace, hseparator, hplus, hopen,
    hclose]

/-- A phone number ends in a decimal digit. -/
lemma lastOf_phone {p : Option Char} {w rest : List Char} (h : phoneCore.Matches p w rest)
    (q : Option Char) : ∃ a ∈ w, Runtime.isDecimal a = true ∧ lastOf q w = some a := by
  obtain ⟨u, v, rfl, -, hlast⟩ := matches_concat_append.mp h
  obtain ⟨hlength, hdigits⟩ := matches_times_char (matches_concat_singleton.mp hlast)
  have hne : v ≠ [] := List.ne_nil_of_length_pos (by omega)
  have hmem := List.getLast_mem hne
  refine ⟨v.getLast hne, List.mem_append_right _ hmem, hdigits _ hmem, ?_⟩
  rw [lastOf_append, lastOf, List.getLast?_eq_some_getLast hne, Option.some_or]

/-- No phone number touches a placeholder. -/
lemma phonePattern_sealed : phonePattern.Sealed '[' phoneLabel ']' where
  opening _ _ _ hmatch hmem :=
    ((matches_phone_iff.mp hmatch).2.1.over phoneCore_over _ hmem).1 rfl
  closing _ _ _ hmatch hmem :=
    ((matches_phone_iff.mp hmatch).2.1.over phoneCore_over _ hmem).2 rfl
  foreign _ _ _ hmatch := by
    obtain ⟨a, ha, hdecimal, -⟩ := lastOf_phone (matches_phone_iff.mp hmatch).2.1 none
    refine ⟨a, ha, fun hmem => ?_⟩
    have hascii : (('[' :: (phoneLabel ++ [']'])).all fun b =>
        decide (b.toNat < 128) && !b.isDigit) = true := rfl
    have hlabel := Bool.and_eq_true_iff.mp (List.all_eq_true.mp hascii a hmem)
    have hdigit : a.isDigit = false := by simpa using hlabel.2
    rw [isDecimal_eq_false (of_decide_eq_true hlabel.1) hdigit] at hdecimal
    cases hdecimal

/-! ## Boundaries beside a placeholder -/

/-- A number begins only after a character that is not part of a word, where a word
character precedes. -/
lemma head_of_phone {p : Option Char} {rest : List Char}
    (hp : p.any Runtime.isWord = true) {e : Cursor} (he : e ∈ phonePattern.ends ⟨p, rest⟩) :
    rest.head?.any Runtime.isWord = false := by
  obtain ⟨w, hw, -, hmatch⟩ :=
    mem_ends.mp (show (⟨e.prev, e.rest⟩ : Cursor) ∈ _ from he)
  have hstart := (matches_phone_iff.mp hmatch).1
  rw [hp, ← hw] at hstart
  exact (Bool.eq_false_iff.mpr hstart.symm)

/-- Behind a word character, the substitution turns no word character into another one. -/
lemma head_of_substituted {p : Option Char} {rest out : List Char}
    (hp : p.any Runtime.isWord = true)
    (h : Substituted phonePattern ('[' :: (phoneLabel ++ [']'])) ⟨p, rest⟩ out)
    (hout : out.head?.any Runtime.isWord = false) :
    rest.head?.any Runtime.isWord = false := by
  cases h with
  | done => rfl
  | skip => exact hout
  | replace he => exact head_of_phone hp he

/-- What stands before a cursor of the text and of the result: the same character, or a
placeholder for a number, which no word character follows. -/
def Beside (q : Option Char) (c : Cursor) : Prop :=
  q = c.prev ∨ q = some ']' ∧ c.rest.head?.any Runtime.isWord = false

/-- A gap in which no number begins is one in the result. -/
lemma ends_of_gap (hword : WordClass) {q : Option Char} {c : Cursor} {out : List Char}
    (hq : Beside q c) (hends : phonePattern.ends c = [])
    (h : Substituted phonePattern ('[' :: (phoneLabel ++ [']'])) c out) :
    phonePattern.ends ⟨q, out⟩ = [] := by
  rw [ends_eq_nil_iff]
  intro w y hout hmatch
  subst hout
  obtain ⟨hstart, hcore, hend⟩ := matches_phone_iff.mp hmatch
  obtain ⟨rest, hrest, hsub⟩ := h.gap (phonePattern_sealed.opening _ _ _ hmatch)
  obtain ⟨a, ha, hdecimal, -⟩ := lastOf_phone hcore q
  have hhead : ∀ tail, (w ++ tail).head? = w.head? := by
    intro tail
    exact List.head?_append_of_ne_nil _ (List.ne_nil_of_mem ha)
  have hlast : ∀ q', (lastOf q' w).any Runtime.isWord = true := by
    intro q'
    obtain ⟨b, -, hb, hlast⟩ := lastOf_phone hcore q'
    rw [hlast]
    exact hword.decimal b hb
  have hbefore : c.prev.any Runtime.isWord ≠ (w ++ rest).head?.any Runtime.isWord := by
    rw [hhead] at hstart ⊢
    rcases hq with rfl | ⟨rfl, hfirst⟩
    · exact hstart
    · -- behind the placeholder a number would begin with a word character
      rw [hrest, hhead] at hfirst
      have hbracket : (some ']').any Runtime.isWord = false := hword.ascii ']' (by decide)
      rw [hfirst, hbracket] at hstart
      exact absurd rfl hstart
  have hafter : rest.head?.any Runtime.isWord = false := by
    rw [hlast] at hend
    exact head_of_substituted (hlast _) hsub (Bool.eq_false_iff.mpr hend.symm)
  refine ends_eq_nil_iff.mp hends w rest hrest (matches_phone_iff.mpr ⟨hbefore, ?_, ?_⟩)
  · exact hcore.elsewhere phoneCore_plain _ _
  · rw [hlast, hafter]
    decide

/-! ## The result -/

/-- Without addresses, the text keeps none when its numbers are replaced. -/
lemma email_absent_of_substituted {text out : List Char}
    (habsent : emailPattern.Absent none text)
    (h : Substituted phonePattern ('[' :: (phoneLabel ++ [']'])) ⟨none, text⟩ out) :
    emailPattern.Absent none out := by
  have hsealed : emailPattern.Sealed '[' phoneLabel ']' := emailPattern_sealed (by decide)
  refine h.absent hsealed (fun _ c => emailPattern.Absent c.prev c.rest) ?_ ?_ ?_ habsent
  · intro q p a rest hc
    exact (absent_cons.mp hc).2
  · intro q c e hc he
    obtain ⟨w, hw, hprev, -⟩ :=
      mem_ends.mp (show (⟨e.prev, e.rest⟩ : Cursor) ∈ phonePattern.ends ⟨c.prev, c.rest⟩ from he)
    rw [hw] at hc
    rw [hprev]
    exact hc.drop
  · intro q c out hc _ hsub
    exact hsub.ends_of_plain hsealed emailPattern_plain (hc [] c.rest rfl) q

omit [Runtime] in
theorem email_absent_masked (text : String) :
    emailPattern.Absent none (emailPattern.sub "[REDACTED_EMAIL]" text).toList := by
  have hsub := substituted_sub "[REDACTED_EMAIL]"
    (shorter_of_matches fun p w rest h => List.ne_nil_of_mem (at_mem_email h)) text
  have hsealed : emailPattern.Sealed '[' emailLabel ']' := emailPattern_sealed (by decide)
  refine hsub.absent hsealed (fun _ _ => True) (fun _ _ _ _ _ => trivial)
    (fun _ _ _ _ _ => trivial) ?_ trivial
  intro q c out _ hends h
  exact h.ends_of_plain hsealed emailPattern_plain hends q

lemma substituted_phones (text : String) :
    Substituted phonePattern ('[' :: (phoneLabel ++ [']'])) ⟨none, text.toList⟩
      (phonePattern.sub "[REDACTED_PHONE]" text).toList := by
  refine substituted_sub "[REDACTED_PHONE]" (shorter_of_matches fun p w rest h => ?_) text
  obtain ⟨a, ha, -⟩ := lastOf_phone (matches_phone_iff.mp h).2.1 none
  exact List.ne_nil_of_mem ha

theorem phone_absent_masked (hword : WordClass) (text : String) :
    phonePattern.Absent none (phonePattern.sub "[REDACTED_PHONE]" text).toList := by
  refine (substituted_phones text).absent phonePattern_sealed Beside ?_ ?_ ?_ (Or.inl rfl)
  · exact fun q p a rest _ => Or.inl rfl
  · intro q c e _ he
    obtain ⟨w, -, hprev, hmatch⟩ :=
      mem_ends.mp (show (⟨e.prev, e.rest⟩ : Cursor) ∈ phonePattern.ends ⟨c.prev, c.rest⟩ from he)
    obtain ⟨-, hcore, hend⟩ := matches_phone_iff.mp hmatch
    obtain ⟨a, -, ha, hlast⟩ := lastOf_phone hcore c.prev
    have hdigit : (lastOf c.prev w).any Runtime.isWord = true := by
      rw [hlast]
      exact hword.decimal a ha
    rw [hdigit] at hend
    exact Or.inr ⟨rfl, Bool.eq_false_iff.mpr hend.symm⟩
  · intro q c out hq hends h
    exact ends_of_gap hword hq hends h

/-- A redacted text has neither an address nor a phone number at any position, and is not
changed by another redaction. -/
theorem redactPii_complete (hword : WordClass) (text : String) :
    emailPattern.Absent none (redactPii text).toList ∧
      phonePattern.Absent none (redactPii text).toList ∧
      redactPii (redactPii text) = redactPii text := by
  have hemail : emailPattern.Absent none (redactPii text).toList :=
    email_absent_of_substituted (email_absent_masked text) (substituted_phones _)
  have hphone : phonePattern.Absent none (redactPii text).toList := phone_absent_masked hword _
  refine ⟨hemail, hphone, ?_⟩
  have hsame : emailPattern.sub "[REDACTED_EMAIL]" (redactPii text) = redactPii text :=
    sub_of_absent hemail
  rw [redactPii.eq_1 (redactPii text), hsame]
  exact sub_of_absent hphone

end

lemma wordClass_ascii : letI := Runtime.ascii; WordClass := by
  let := Runtime.ascii
  refine ⟨fun a ha => ?_, fun _ _ => rfl⟩
  have hdigit : a.isDigit = true := ha
  change (a.isAlphanum || a == '_') = true
  rw [Char.isAlphanum, hdigit, Bool.or_true, Bool.true_or]

/-- An address and two numbers that share a separator. -/
theorem redactPii_complete_sample :
    letI := Runtime.ascii
    let text := "a.b@c.org, +1 (555) 123-4567 555.123.4567"
    redactPii text = "[REDACTED_EMAIL], +1 ([REDACTED_PHONE] [REDACTED_PHONE]" ∧
      redactPii (redactPii text) = redactPii text := by
  let := Runtime.ascii
  exact ⟨by decide +kernel, (redactPii_complete wordClass_ascii _).2.2⟩

end InferenceControlPlane.Gateway
