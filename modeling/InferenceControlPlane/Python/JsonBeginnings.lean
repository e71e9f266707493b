import InferenceControlPlane.Python.JsonDocument
import Mathlib.Data.List.TakeWhile

/-!
# Beginnings of a document

The scanner decides by the characters that it has read. What it reads from a text that goes
on after the value, it reads from every longer text, and so from an object or an array in
any case: they end with their bracket. No proper beginning of a document of theirs is taken
for a document.
-/
namespace InferenceControlPlane.Python.JsonText

/-- What is read from a text is read from the longer text, and the addition is left. -/
def Keeps {α : Type} (q : List Char) (x y : Except PyErr (α × List Char)) : Prop :=
  ∀ a rest, x = .ok (a, rest) → y = .ok (a, rest ++ q)

section
variable {α β : Type} {q : List Char} {x y : Except PyErr (α × List Char)}

lemma Keeps.map (h : Keeps q x y) (f : α → β) :
    Keeps q (x.map fun r => (f r.1, r.2)) (y.map fun r => (f r.1, r.2)) := by
  intro b rest hx
  obtain ⟨⟨a, rest'⟩, hread, heq⟩ := map_eq_ok hx
  cases heq
  rw [h a rest' hread]
  rfl

lemma Keeps.bind {f g : α × List Char → Except PyErr (β × List Char)} (h : Keeps q x y)
    (hfg : ∀ a rest, Keeps q (f (a, rest)) (g (a, rest ++ q))) : Keeps q (x >>= f) (y >>= g) := by
  intro b rest hx
  obtain ⟨⟨a, rest'⟩, hread, hf⟩ := bind_eq_ok hx
  rw [h a rest' hread]
  exact hfg a rest' b rest hf

lemma keeps_error {e : PyErr} : Keeps q (.error e) y := by
  intro a rest h
  cases h

end

/-! ## Texts -/

lemma scanUnits_append (p q : List Char) : Keeps q (scanUnits p) (scanUnits (p ++ q)) := by
  induction p using scanUnits.induct with
  | case1 => exact keeps_error
  | case2 rest =>
    rw [List.cons_append, scanUnits_quote, scanUnits_quote]
    intro us rest' h
    cases h
    rfl
  | case3 _ => exact keeps_error
  | case4 h₁ h₂ h₃ h₄ rest u hu hquote ih =>
    simp only [List.cons_append]
    rw [scanUnits.eq_def, scanUnits.eq_def ('\\' :: _)]
    simpa [hu] using ih.map (u :: ·)
  | case5 h₁ h₂ h₃ h₄ rest hu hquote =>
    rw [scanUnits.eq_def]
    simpa [hu] using keeps_error
  | case6 rest hshort hquote =>
    rcases rest with _ | ⟨h₁, _ | ⟨h₂, _ | ⟨h₃, _ | ⟨h₄, rest⟩⟩⟩⟩
    · exact keeps_error
    · exact keeps_error
    · exact keeps_error
    · exact keeps_error
    · exact (hshort h₁ h₂ h₃ h₄ rest rfl).elim
  | case7 letter rest hu c hc hquote ih =>
    simp only [List.cons_append]
    rw [scanUnits_letter hu hc, scanUnits_letter hu hc]
    exact ih.map (c.toNat :: ·)
  | case8 letter rest hu hc hquote =>
    rw [scanUnits.eq_def]
    simpa [hu, hc] using keeps_error
  | case9 c rest hquote hescape hlow =>
    rw [scanUnits.eq_def]
    simpa [hquote, hescape, hlow] using keeps_error
  | case10 c rest hquote hescape hlow ih =>
    simp only [List.cons_append]
    rw [scanUnits_plain hquote hescape (not_lt.mp hlow),
      scanUnits_plain hquote hescape (not_lt.mp hlow)]
    exact ih.map (c.toNat :: ·)

lemma scanString_append (p q : List Char) : Keeps q (scanString p) (scanString (p ++ q)) :=
  (scanUnits_append p q).map fun us => String.ofList (joinUnits us)

/-! ## Single characters and space -/

lemma expect_append (c : Char) (p q : List Char) :
    ∀ rest, expect c p = .ok rest → expect c (p ++ q) = .ok (rest ++ q) := by
  intro rest h
  cases p with
  | nil => cases h
  | cons d p =>
    rw [expect] at h
    split_ifs at h with hhead
    cases h
    rw [List.cons_append, expect, List.head?_cons]
    rw [List.head?_cons] at hhead
    rw [if_pos hhead]
    rfl

/-- Space that something follows ends where it ended. -/
lemma skipSpace_append {p : List Char} (h : skipSpace p ≠ []) (q : List Char) :
    skipSpace (p ++ q) = skipSpace p ++ q := by
  rw [skipSpace, List.dropWhile_append, if_neg]
  · rfl
  · simpa [skipSpace] using h

/-- What is not skipped is there to be seen. -/
lemma head_skipSpace {p : List Char} {c : Char} (h : (skipSpace p).head? = some c) :
    skipSpace p ≠ [] := by
  intro hempty
  rw [hempty] at h
  cases h

lemma expect_ne_nil {c : Char} {p rest : List Char} (h : expect c p = .ok rest) :
    p.head? = some c ∧ rest = p.tail := by
  rw [expect] at h
  split_ifs at h with hhead
  exact ⟨hhead, (Except.ok.inj h).symm⟩

/-! ## Numbers -/

/-- The text goes on, with something that belongs to no number. -/
def Settled (rest : List Char) : Prop :=
  ∃ c cs, rest = c :: cs ∧ c ≠ '.' ∧ c ≠ 'e' ∧ c ≠ 'E'

lemma scanOneOf_cases (options cs : List Char) :
    (∃ c rest, c ∈ options ∧ cs = c :: rest ∧ scanOneOf options cs = ([c], rest)) ∨
      (∀ c ∈ options, cs.head? ≠ some c) ∧ scanOneOf options cs = ([], cs) := by
  by_cases h : ∃ c ∈ options, cs.head? = some c
  · obtain ⟨c, hc, hhead⟩ := h
    obtain ⟨rest, rfl⟩ : ∃ rest, cs = c :: rest := ⟨cs.tail, List.eq_cons_of_mem_head? hhead⟩
    exact Or.inl ⟨c, rest, hc, rfl, scanOneOf_take hc⟩
  · have hnone : ∀ c ∈ options, cs.head? ≠ some c := fun c hc hhead => h ⟨c, hc, hhead⟩
    exact Or.inr ⟨hnone, scanOneOf_skip hnone⟩

/-- What is left after a row of digits. -/
lemma drop_digits (cs : List Char) :
    cs = cs.takeWhile Char.isDigit ++ cs.drop (cs.takeWhile Char.isDigit).length ∧
      Stops (cs.drop (cs.takeWhile Char.isDigit).length) := by
  have hsplit : cs.takeWhile Char.isDigit ++ cs.dropWhile Char.isDigit = cs :=
    List.takeWhile_append_dropWhile
  have hdrop : cs.drop (cs.takeWhile Char.isDigit).length = cs.dropWhile Char.isDigit := by
    have hleft : (cs.takeWhile Char.isDigit ++ cs.dropWhile Char.isDigit).drop
        (cs.takeWhile Char.isDigit).length = cs.dropWhile Char.isDigit := List.drop_left
    rwa [hsplit] at hleft
  rw [hdrop]
  refine ⟨hsplit.symm, ?_⟩
  intro c hc
  have hhead := List.head?_dropWhile_not Char.isDigit cs
  rw [hc] at hhead
  simpa using hhead

/-- A part of a number is there with its digits, or nothing is taken. -/
lemma scanPart_cases (opening signs cs : List Char) :
    (∃ mark sign ds rest, mark ∈ opening ∧ (sign = [] ∨ ∃ c ∈ signs, sign = [c]) ∧ Digits ds ∧
      Stops rest ∧ cs = mark :: (sign ++ ds) ++ rest ∧
      scanPart opening signs cs = (mark :: (sign ++ ds), rest)) ∨
    scanPart opening signs cs = ([], cs) := by
  rcases scanOneOf_cases opening cs with ⟨mark, rest, hmark, rfl, htake⟩ | ⟨-, hskip⟩
  · obtain ⟨sign, body, hsign, rfl, hbody⟩ : ∃ sign body, (sign = [] ∨ ∃ c ∈ signs, sign = [c]) ∧
        rest = sign ++ body ∧ scanOneOf signs rest = (sign, body) := by
      rcases scanOneOf_cases signs rest with ⟨c, rest, hc, rfl, hsigned⟩ | ⟨-, hunsigned⟩
      · exact ⟨[c], rest, Or.inr ⟨c, hc, rfl⟩, rfl, hsigned⟩
      · exact ⟨[], rest, Or.inl rfl, rfl, hunsigned⟩
    by_cases hdigits : body.takeWhile Char.isDigit = []
    · exact Or.inr (by simp [scanPart, htake, hbody, hdigits])
    · refine Or.inl ⟨mark, sign, body.takeWhile Char.isDigit,
        body.drop (body.takeWhile Char.isDigit).length, hmark, hsign,
        ⟨hdigits, fun c hc => (List.all_eq_true.mp List.all_takeWhile) c hc⟩,
        (drop_digits body).2, ?_, ?_⟩
      · rw [List.cons_append, List.append_assoc, ← (drop_digits body).1]
      · simp [scanPart, htake, hbody, hdigits]
  · exact Or.inr (by simp [scanPart, hskip])

/-- A part is taken from a longer text as it is taken from the text, where what follows it is
there and does not begin another one. -/
lemma scanPart_append {opening signs cs part rest : List Char}
    (h : scanPart opening signs cs = (part, rest)) (hsigns : ∀ c ∈ signs, c.isDigit = false)
    (hrest : rest ≠ []) (hopening : ∀ c ∈ opening, rest.head? ≠ some c) (q : List Char) :
    cs = part ++ rest ∧ scanPart opening signs (cs ++ q) = (part, rest ++ q) := by
  rcases scanPart_cases opening signs cs with
    ⟨mark, sign, ds, rest', hmark, hsign, hds, hstops, rfl, htake⟩ | hskip
  · rw [htake, Prod.mk.injEq] at h
    obtain ⟨rfl, rfl⟩ := h
    refine ⟨rfl, ?_⟩
    rw [List.append_assoc]
    apply scanPart_take hmark hsigns hsign hds
    intro c hc
    rw [List.head?_append_of_ne_nil _ hrest] at hc
    exact hstops c hc
  · rw [hskip, Prod.mk.injEq] at h
    obtain ⟨rfl, rfl⟩ := h
    refine ⟨rfl, ?_⟩
    apply scanPart_skip
    intro c hc
    rw [List.head?_append_of_ne_nil _ hrest]
    exact hopening c hc

/-- The whole part of a number. -/
def wholeOf (body : List Char) : List Char :=
  if body.head? = some '0' then ['0'] else body.takeWhile Char.isDigit

/-- A whole part that something follows is whole. -/
lemma wholeOf_append {body : List Char} (h : body.drop (wholeOf body).length ≠ []) (q : List Char) :
    wholeOf (body ++ q) = wholeOf body ∧
      (body ++ q).drop (wholeOf body).length = body.drop (wholeOf body).length ++ q := by
  have hbody : body ≠ [] := by
    rintro rfl
    simp at h
  have hlength : (wholeOf body).length ≤ body.length := by
    by_contra hlong
    exact h (List.drop_eq_nil_of_le (not_le.mp hlong).le)
  refine ⟨?_, List.drop_append_of_le_length hlength⟩
  unfold wholeOf at h ⊢
  rw [List.head?_append_of_ne_nil _ hbody]
  split_ifs with hzero
  · rfl
  · rw [if_neg hzero] at h
    rw [List.takeWhile_append, if_neg]
    intro hall
    exact h (List.drop_eq_nil_of_le hall.ge)

section
variable [Runtime]

/-- What the parts of a number stand for. -/
def numberFrom (sign whole decimals exponent : List Char) : Except PyErr Json :=
  if whole = [] then .error .valueError
  else if decimals = [] ∧ exponent = [] then
    if maxStrDigits < whole.length then .error .valueError
    else
      let n : ℤ := numeral asciiValue whole
      .ok (.int (if sign = [] then n else -n))
  else
    match Runtime.floatOfText (String.ofList (sign ++ whole ++ decimals ++ exponent)) with
    | some x => .ok (.float x)
    | none => .error .valueError

lemma scanNumber_of_parts {p sign body decimals rest exponent rest' : List Char}
    (hsign : scanOneOf ['-'] p = (sign, body))
    (hdecimals : scanPart ['.'] [] (body.drop (wholeOf body).length) = (decimals, rest))
    (hexponent : scanPart ['e', 'E'] ['+', '-'] rest = (exponent, rest')) :
    scanNumber p = (numberFrom sign (wholeOf body) decimals exponent).map fun v => (v, rest') := by
  have hwhole : (if body.head? = some '0' then ['0'] else body.takeWhile Char.isDigit) =
      wholeOf body := rfl
  simp only [scanNumber, hsign, hwhole, hdecimals, hexponent, numberFrom]
  split_ifs with hnone hint hlong hplus
  · rfl
  · rfl
  · rfl
  · rfl
  · cases Runtime.floatOfText (String.ofList (sign ++ wholeOf body ++ decimals ++ exponent)) with
    | none => rfl
    | some x => rfl

/-- A number that something else follows is over. -/
lemma scanNumber_append {p rest : List Char} {v : Json} (h : scanNumber p = .ok (v, rest))
    (hrest : Settled rest) (q : List Char) : scanNumber (p ++ q) = .ok (v, rest ++ q) := by
  obtain ⟨sign, body, hsign⟩ : ∃ sign body, scanOneOf ['-'] p = (sign, body) := ⟨_, _, rfl⟩
  obtain ⟨decimals, rest₁, hdecimals⟩ : ∃ decimals rest₁, scanPart ['.'] []
      (body.drop (wholeOf body).length) = (decimals, rest₁) := ⟨_, _, rfl⟩
  obtain ⟨exponent, rest₂, hexponent⟩ : ∃ exponent rest₂, scanPart ['e', 'E'] ['+', '-'] rest₁ =
      (exponent, rest₂) := ⟨_, _, rfl⟩
  rw [scanNumber_of_parts hsign hdecimals hexponent] at h
  obtain ⟨v', hv, heq⟩ := map_eq_ok h
  cases heq
  obtain ⟨c, cs, rfl, hpoint, hlower, hupper⟩ := hrest
  obtain ⟨hsplit, hexponent'⟩ := scanPart_append hexponent (by simp) (List.cons_ne_nil c cs)
    (by simp [hlower, hupper]) q
  have hrest₁ : rest₁ ≠ [] := by
    rw [hsplit]
    simp
  have hpoint₁ : ∀ d ∈ ['.'], rest₁.head? ≠ some d := by
    intro d hd
    rw [List.mem_singleton.mp hd, hsplit]
    rcases scanPart_cases ['e', 'E'] ['+', '-'] rest₁ with
      ⟨mark, _, _, _, hmark, -, -, -, -, htake⟩ | hskip
    · rw [htake] at hexponent
      cases hexponent
      simp only [List.mem_cons, List.not_mem_nil, or_false] at hmark
      rcases hmark with rfl | rfl
      · simp
      · simp
    · rw [hskip] at hexponent
      cases hexponent
      simpa using hpoint
  obtain ⟨hsplit₁, hdecimals'⟩ := scanPart_append hdecimals (by simp) hrest₁ hpoint₁ q
  have hbody : body.drop (wholeOf body).length ≠ [] := by
    rw [hsplit₁]
    simp [hrest₁]
  obtain ⟨hwhole, hdrop⟩ := wholeOf_append hbody q
  have hsign' : scanOneOf ['-'] (p ++ q) = (sign, body ++ q) := by
    have hne : body ≠ [] := by
      rintro rfl
      simp at hbody
    rcases scanOneOf_cases ['-'] p with ⟨d, tail, hd, rfl, htake⟩ | ⟨hnone, hskip⟩
    · rw [htake] at hsign
      cases hsign
      exact scanOneOf_take hd
    · rw [hskip] at hsign
      cases hsign
      apply scanOneOf_skip
      rw [List.head?_append_of_ne_nil _ hne]
      exact hnone
  rw [← hdrop, ← hwhole] at hdecimals'
  rw [scanNumber_of_parts hsign' hdecimals' hexponent', hwhole, hv]
  rfl

/-- Where a number is read, a digit comes first, after its sign. -/
lemma scanNumber_starts {p rest : List Char} {v : Json} (h : scanNumber p = .ok (v, rest)) :
    ∃ c cs, c.isDigit = true ∧ (p = c :: cs ∨ p = '-' :: c :: cs) := by
  obtain ⟨sign, body, hsign⟩ : ∃ sign body, scanOneOf ['-'] p = (sign, body) := ⟨_, _, rfl⟩
  rw [scanNumber_of_parts hsign rfl rfl] at h
  obtain ⟨v', hv, -⟩ := map_eq_ok h
  have hwhole : wholeOf body ≠ [] := by
    intro hempty
    rw [numberFrom, if_pos hempty] at hv
    cases hv
  obtain ⟨c, cs, rfl, hdigit⟩ : ∃ c cs, body = c :: cs ∧ c.isDigit = true := by
    cases body with
    | nil => exact absurd rfl hwhole
    | cons c cs =>
      refine ⟨c, cs, rfl, ?_⟩
      by_contra hother
      have hzero : c ≠ '0' := by
        rintro rfl
        exact hother rfl
      exact hwhole (by simp [wholeOf, hzero, hother])
  rcases scanOneOf_cases ['-'] p with ⟨d, rest', hd, rfl, htake⟩ | ⟨-, hskip⟩
  · rw [htake] at hsign
    cases hsign
    rw [List.mem_singleton.mp hd]
    exact ⟨c, cs, hdigit, Or.inr rfl⟩
  · rw [hskip] at hsign
    cases hsign
    exact ⟨c, cs, hdigit, Or.inl rfl⟩

omit [Runtime] in
lemma scanConstant_text : ∀ w ∈ constants, ∀ rest,
    scanConstant (w.1.toList ++ rest) = some (w.2, rest) := by
  intro w hw rest
  simp only [constants, List.mem_cons, List.not_mem_nil, or_false] at hw
  rcases hw with rfl | rfl | rfl | rfl | rfl | rfl
  · rfl
  · rfl
  · rfl
  · rfl
  · rfl
  · rfl

omit [Runtime] in
lemma scanConstant_append {p rest : List Char} {v : Json} (h : scanConstant p = some (v, rest))
    (q : List Char) : scanConstant (p ++ q) = some (v, rest ++ q) := by
  obtain ⟨w, hfind, heq⟩ := Option.map_eq_some_iff.mp h
  cases heq
  have hprefix : w.1.toList.isPrefixOf p = true :=
    @List.find?_some _ (fun w : String × Json => w.1.toList.isPrefixOf p) w constants hfind
  obtain ⟨rest, rfl⟩ := List.isPrefixOf_iff_prefix.mp hprefix
  rw [List.append_assoc, scanConstant_text w (List.mem_of_find?_eq_some hfind),
    ← String.length_toList, List.drop_left]

/-! ## Values -/

/-- A bracket opens the text. -/
def Bracketed (p : List Char) : Prop := p.head? = some '{' ∨ p.head? = some '['

/-- The scanners keep what they read with this fuel, when they get more fuel and more text. -/
structure KeepsAll (q : List Char) (fuel fuel' : ℕ) : Prop where
  value : ∀ p v rest, scanValue fuel p = .ok (v, rest) → Settled rest ∨ Bracketed p →
    scanValue fuel' (p ++ q) = .ok (v, rest ++ q)
  members : ∀ p, Keeps q (scanMembers fuel p) (scanMembers fuel' (p ++ q))
  items : ∀ p, Keeps q (scanItems fuel p) (scanItems fuel' (p ++ q))

omit [Runtime] in
/-- What a separator or a bracket follows, after space, is settled. -/
lemma settled_of_skipSpace {rest : List Char} {c : Char} (h : (skipSpace rest).head? = some c)
    (hc : c = ',' ∨ c = '}' ∨ c = ']') : Settled rest := by
  cases rest with
  | nil => cases h
  | cons d rest =>
    refine ⟨d, rest, rfl, ?_⟩
    by_cases hspace : d = ' ' ∨ d = '\t' ∨ d = '\n' ∨ d = '\r'
    · rcases hspace with rfl | rfl | rfl | rfl
      · decide
      · decide
      · decide
      · decide
    · rw [skipSpace, List.dropWhile_cons_of_neg (by simpa using hspace)] at h
      cases h
      rcases hc with rfl | rfl | rfl
      · decide
      · decide
      · decide

/-- How a scanner of a list goes on after an element. -/
def goOn {β : Type} (scan : List Char → Except PyErr (List β × List Char)) (closing : Char)
    (value : β) (rest : List Char) : Except PyErr (List β × List Char) :=
  if (skipSpace rest).head? = some ',' then
    (scan (skipSpace (skipSpace rest).tail)).map fun m => (value :: m.1, m.2)
  else (expect closing (skipSpace rest)).map fun rest => ([value], rest)

omit [Runtime] in
lemma settled_of_goOn {β : Type} {scan : List Char → Except PyErr (List β × List Char)}
    {closing : Char} (hclosing : closing = '}' ∨ closing = ']') (value : β) {rest : List Char}
    {r : List β × List Char} (h : goOn scan closing value rest = .ok r) : Settled rest := by
  rw [goOn] at h
  split_ifs at h with hcomma
  · exact settled_of_skipSpace hcomma (Or.inl rfl)
  · obtain ⟨rest', hend, -⟩ := map_eq_ok h
    exact settled_of_skipSpace (expect_ne_nil hend).1 (Or.inr hclosing)

omit [Runtime] in
/-- The rest of a list is kept. -/
lemma keeps_goOn {β : Type} {q : List Char} {closing : Char} (value : β) (rest : List Char)
    {scan scan' : List Char → Except PyErr (List β × List Char)}
    (hscan : ∀ p, Keeps q (scan p) (scan' (p ++ q))) (hempty : ∀ r, scan [] ≠ .ok r) :
    Keeps q (goOn scan closing value rest) (goOn scan' closing value (rest ++ q)) := by
  intro values left h
  have hne : skipSpace rest ≠ [] := by
    intro hnil
    rw [goOn, hnil] at h
    cases h
  rw [goOn, skipSpace_append hne, List.head?_append_of_ne_nil _ hne]
  rw [goOn] at h
  split_ifs at h ⊢ with hcomma
  · rw [List.tail_append_of_ne_nil hne]
    have htail : skipSpace (skipSpace rest).tail ≠ [] := by
      intro hnil
      rw [hnil] at h
      obtain ⟨r, hr, -⟩ := map_eq_ok h
      exact hempty r hr
    rw [skipSpace_append htail]
    exact (hscan _).map (value :: ·) values left h
  · obtain ⟨rest', hend, heq⟩ := map_eq_ok h
    cases heq
    rw [expect_append closing _ q _ hend]
    rfl

lemma scanValue_nil (fuel : ℕ) (r : Json × List Char) : scanValue fuel [] ≠ .ok r := by
  intro h
  cases fuel with
  | zero => cases h
  | succ fuel => cases h

lemma scanItems_nil (fuel : ℕ) (r : List Json × List Char) : scanItems fuel [] ≠ .ok r := by
  intro h
  cases fuel with
  | zero => cases h
  | succ fuel =>
    rw [scanItems_step] at h
    obtain ⟨v, hv, -⟩ := bind_eq_ok h
    exact scanValue_nil fuel v hv

lemma scanMembers_nil (fuel : ℕ) (r : List (String × Json) × List Char) :
    scanMembers fuel [] ≠ .ok r := by
  intro h
  cases fuel with
  | zero => cases h
  | succ fuel => cases h

section
variable {q : List Char} {fuel fuel' : ℕ}

lemma keeps_items (h : KeepsAll q fuel fuel') (p : List Char) :
    Keeps q (scanItems (fuel + 1) p) (scanItems (fuel' + 1) (p ++ q)) := by
  intro items rest hread
  rw [scanItems_step] at hread ⊢
  obtain ⟨r, hvalue, hnext⟩ := bind_eq_ok hread
  have hsettled : Settled r.2 := settled_of_goOn (Or.inr rfl) r.1 hnext
  rw [h.value p r.1 r.2 hvalue (Or.inl hsettled)]
  exact keeps_goOn r.1 r.2 h.items (scanItems_nil fuel) items rest hnext

/-- The value of a member and what comes after it. -/
lemma keeps_member (h : KeepsAll q fuel fuel') (key : String) (p : List Char) :
    Keeps q (scanMember fuel key p) (scanMember fuel' key (p ++ q)) := by
  intro members rest hread
  rw [scanMember] at hread ⊢
  obtain ⟨r, hvalue, hnext⟩ := bind_eq_ok hread
  have hsettled : Settled r.2 := settled_of_goOn (Or.inl rfl) (key, r.1) hnext
  have hne : skipSpace p ≠ [] := by
    intro hnil
    rw [hnil] at hvalue
    exact scanValue_nil fuel r hvalue
  rw [skipSpace_append hne, h.value _ r.1 r.2 hvalue (Or.inl hsettled)]
  exact keeps_goOn (key, r.1) r.2 h.members (scanMembers_nil fuel) members rest hnext

lemma keeps_members (h : KeepsAll q fuel fuel') (p : List Char) :
    Keeps q (scanMembers (fuel + 1) p) (scanMembers (fuel' + 1) (p ++ q)) := by
  intro members rest hread
  rw [scanMembers_step] at hread ⊢
  obtain ⟨opened, hopen, hread⟩ := bind_eq_ok hread
  obtain ⟨k, hkey, hread⟩ := bind_eq_ok hread
  obtain ⟨rest', hcolon, hread⟩ := bind_eq_ok hread
  have hne : skipSpace k.2 ≠ [] := head_skipSpace (expect_ne_nil hcolon).1
  rw [expect_append _ _ q _ hopen, ok_bind, scanString_append opened q k.1 k.2 hkey, ok_bind,
    skipSpace_append hne, expect_append _ _ q _ hcolon, ok_bind]
  exact keeps_member h k.1 rest' members rest hread

omit [Runtime] in
/-- An array or an object ends with its bracket. -/
lemma keeps_enclosed {β : Type} {scan scan' : List Char → Except PyErr (List β × List Char)}
    (hscan : ∀ p, Keeps q (scan p) (scan' (p ++ q))) (hempty : ∀ r, scan [] ≠ .ok r)
    (closing : Char) (empty : Json) (value : List β → Json) (p : List Char) :
    Keeps q
      (if (skipSpace p).head? = some closing then .ok (empty, (skipSpace p).tail)
        else (scan (skipSpace p)).map fun r => (value r.1, r.2))
      (if (skipSpace (p ++ q)).head? = some closing then .ok (empty, (skipSpace (p ++ q)).tail)
        else (scan' (skipSpace (p ++ q))).map fun r => (value r.1, r.2)) := by
  intro v rest h
  have hne : skipSpace p ≠ [] := by
    intro hnil
    rw [hnil] at h
    obtain ⟨r, hr, -⟩ := map_eq_ok h
    exact hempty r hr
  rw [skipSpace_append hne, List.head?_append_of_ne_nil _ hne]
  split_ifs at h ⊢ with hclosed
  · cases h
    rw [List.tail_append_of_ne_nil hne]
  · exact (hscan _).map value v rest h

/-- A value that is none of the others is a constant or a number. -/
lemma keeps_atom {p rest : List Char} {v : Json}
    (h : (scanConstant p).elim (scanNumber p) .ok = .ok (v, rest)) (hsettled : Settled rest) :
    (scanConstant (p ++ q)).elim (scanNumber (p ++ q)) .ok = .ok (v, rest ++ q) := by
  cases hconstant : scanConstant p with
  | some r =>
    rw [hconstant, Option.elim_some] at h
    cases h
    rw [scanConstant_append hconstant, Option.elim_some]
  | none =>
    rw [hconstant, Option.elim_none] at h
    have hnone : scanConstant (p ++ q) = none := by
      obtain ⟨c, cs, hdigit, rfl | rfl⟩ := scanNumber_starts h
      · exact (scanConstant_digit hdigit _).1
      · exact (scanConstant_digit hdigit _).2
    rw [hnone, Option.elim_none]
    exact scanNumber_append h hsettled q

lemma scanValue_step (fuel : ℕ) (p : List Char) :
    scanValue (fuel + 1) p =
      if p.head? = some '"' then (scanString p.tail).map fun r => (.str r.1, r.2)
      else if p.head? = some '{' then
        if (skipSpace p.tail).head? = some '}' then .ok (.obj [], (skipSpace p.tail).tail)
        else (scanMembers fuel (skipSpace p.tail)).map
          fun r => (.obj (Dict.ofList r.1).entries, r.2)
      else if p.head? = some '[' then
        if (skipSpace p.tail).head? = some ']' then .ok (.arr [], (skipSpace p.tail).tail)
        else (scanItems fuel (skipSpace p.tail)).map fun r => (.arr r.1, r.2)
      else (scanConstant p).elim (scanNumber p) .ok := by
  rw [scanValue]
  cases scanConstant p with
  | none => rfl
  | some r => rfl

lemma keeps_value (h : KeepsAll q fuel fuel') (p : List Char) {v : Json} {rest : List Char}
    (hread : scanValue (fuel + 1) p = .ok (v, rest)) (hover : Settled rest ∨ Bracketed p) :
    scanValue (fuel' + 1) (p ++ q) = .ok (v, rest ++ q) := by
  have hne : p ≠ [] := by
    rintro rfl
    exact scanValue_nil _ _ hread
  rw [scanValue_step] at hread ⊢
  rw [List.head?_append_of_ne_nil _ hne, List.tail_append_of_ne_nil hne]
  by_cases hquote : p.head? = some '"'
  · rw [if_pos hquote] at hread ⊢
    exact (scanString_append p.tail q).map Json.str v rest hread
  rw [if_neg hquote] at hread ⊢
  by_cases hbrace : p.head? = some '{'
  · rw [if_pos hbrace] at hread ⊢
    exact keeps_enclosed h.members (scanMembers_nil fuel) '}' (.obj [])
      (fun members => .obj (Dict.ofList members).entries) p.tail v rest hread
  rw [if_neg hbrace] at hread ⊢
  by_cases hbracket : p.head? = some '['
  · rw [if_pos hbracket] at hread ⊢
    exact keeps_enclosed h.items (scanItems_nil fuel) ']' (.arr []) Json.arr p.tail v rest hread
  rw [if_neg hbracket] at hread ⊢
  exact keeps_atom hread (hover.resolve_right fun hopen => hopen.elim hbrace hbracket)

end

/-- More fuel and more text change nothing that has been read, by induction on the fuel. -/
theorem keepsAll (q : List Char) {fuel fuel' : ℕ} (h : fuel ≤ fuel') : KeepsAll q fuel fuel' := by
  induction fuel generalizing fuel' with
  | zero =>
    refine ⟨?_, fun p => keeps_error, fun p => keeps_error⟩
    intro p v rest hread
    cases hread
  | succ fuel ih =>
    obtain ⟨fuel', rfl⟩ : ∃ n, fuel' = n + 1 := ⟨fuel' - 1, by omega⟩
    have hkeeps := @ih fuel' (by omega)
    exact ⟨fun p v rest => keeps_value hkeeps p, keeps_members hkeeps, keeps_items hkeeps⟩

/-- How a document that begins with a bracket is read. -/
lemma loads_bracketed {p : List Char} {v : Json} (hopen : Bracketed p) (h : loads p = .ok v) :
    ∃ rest, scanValue (p.length + 1) p = .ok (v, rest) ∧ skipSpace rest = [] := by
  obtain ⟨c, cs, rfl, hspace, hmark⟩ : ∃ c cs, p = c :: cs ∧ skipSpace (c :: cs) = c :: cs ∧
      c ≠ '\ufeff' := by
    rcases hopen with hbrace | hbracket
    · exact ⟨'{', p.tail, List.eq_cons_of_mem_head? hbrace, rfl, by decide⟩
    · exact ⟨'[', p.tail, List.eq_cons_of_mem_head? hbracket, rfl, by decide⟩
  rw [loads, List.head?_cons, if_neg (by simpa using hmark), hspace] at h
  obtain ⟨⟨value, rest⟩, hscan, hend⟩ := bind_eq_ok h
  by_cases hrest : skipSpace rest = []
  · simp only [if_pos hrest] at hend
    cases hend
    exact ⟨rest, hscan, hrest⟩
  · simp only [if_neg hrest] at hend
    cases hend

/-- A document that begins with a bracket is over where its beginning is one: nothing but
space comes after it. -/
theorem loads_beginning {p q : List Char} {v v' : Json} (hopen : Bracketed p)
    (hpart : loads p = .ok v) (hwhole : loads (p ++ q) = .ok v') : v' = v ∧ skipSpace q = [] := by
  have hopen' : Bracketed (p ++ q) := by
    have hne : p ≠ [] := by
      rintro rfl
      rcases hopen with hbrace | hbracket
      · cases hbrace
      · cases hbracket
    rw [Bracketed, List.head?_append_of_ne_nil _ hne]
    exact hopen
  obtain ⟨rest, hscan, hrest⟩ := loads_bracketed hopen hpart
  obtain ⟨rest', hscan', hrest'⟩ := loads_bracketed hopen' hwhole
  have hlength : p.length + 1 ≤ (p ++ q).length + 1 := by simp
  have hkept := (keepsAll q hlength).value p v rest hscan (Or.inr hopen)
  rw [hkept] at hscan'
  cases hscan'
  refine ⟨rfl, ?_⟩
  rw [skipSpace, List.dropWhile_append] at hrest'
  rw [skipSpace] at hrest
  rw [hrest] at hrest'
  exact hrest'

/-! ## Documents that were cut off -/

omit [Runtime] in
lemma enclose_ends (indent : Option ℕ) (depth : ℕ) (opening closing : Char)
    (items : List (List Char)) :
    ∃ inside, enclose indent depth opening closing items = opening :: (inside ++ [closing]) := by
  by_cases h : items = []
  · exact ⟨[], by rw [enclose, if_pos h]; rfl⟩
  · exact ⟨_, by rw [enclose, if_neg h]; rfl⟩

/-- A value that is written between brackets. -/
def Enclosed : Json → Prop
  | .arr _ => True
  | .obj _ => True
  | _ => False

lemma dumps_ends {indent : Option ℕ} {value : Json} {text : List Char} (hvalue : Enclosed value)
    (h : dumps indent value = .ok text) :
    ∃ inside closing, Bracketed text ∧ text.tail = inside ++ [closing] ∧
      (closing = '}' ∨ closing = ']') := by
  cases value with
  | arr items =>
    rw [dumps, dumpValue] at h
    obtain ⟨texts, -, rfl⟩ := map_eq_ok h
    obtain ⟨inside, heq⟩ := enclose_ends indent 0 '[' ']' texts
    rw [heq]
    exact ⟨inside, ']', Or.inr rfl, rfl, Or.inr rfl⟩
  | obj fields =>
    rw [dumps, dumpValue] at h
    obtain ⟨texts, -, rfl⟩ := map_eq_ok h
    obtain ⟨inside, heq⟩ := enclose_ends indent 0 '{' '}' texts
    rw [heq]
    exact ⟨inside, '}', Or.inl rfl, rfl, Or.inl rfl⟩
  | null => exact hvalue.elim
  | bool b => exact hvalue.elim
  | int n => exact hvalue.elim
  | float x => exact hvalue.elim
  | str s => exact hvalue.elim

/-- No beginning of a document but the whole of it can be read. Whoever reads a half-written file
gets an error, not a document. -/
theorem loads_cut {indent : Option ℕ} {value v : Json} {text p : List Char}
    (hshape : Enclosed value) (hvalue : Faithful value) (htext : dumps indent value = .ok text)
    (hpart : p <+: text) (hload : loads p = .ok v) : v = value ∧ p = text := by
  obtain ⟨q, rfl⟩ := hpart
  obtain ⟨inside, closing, hopen, htail, hclosing⟩ := dumps_ends hshape htext
  have hne : p ≠ [] := by
    intro hnil
    rw [hnil] at hload
    cases hload
  have hopen' : Bracketed p := by
    rw [Bracketed, List.head?_append_of_ne_nil _ hne] at hopen
    exact hopen
  obtain ⟨heq, hspace⟩ := loads_beginning hopen' hload (loads_dumps hvalue htext)
  refine ⟨heq.symm, ?_⟩
  -- What is cut off ends with the closing bracket, which is no space.
  by_contra hcut
  have hq : q ≠ [] := by
    intro hnil
    rw [hnil, List.append_nil] at hcut
    exact hcut rfl
  have hlast : q.getLast hq = closing := by
    rw [List.tail_append_of_ne_nil hne] at htail
    have hends := congrArg List.getLast? htail
    rw [List.getLast?_append_of_ne_nil _ hq, List.getLast?_concat] at hends
    rw [List.getLast?_eq_some_getLast hq, Option.some.injEq] at hends
    exact hends
  have hmem := List.getLast_mem hq
  rw [hlast] at hmem
  rw [skipSpace, List.dropWhile_eq_nil_iff] at hspace
  have hall := hspace closing hmem
  rcases hclosing with rfl | rfl
  · cases hall
  · cases hall

end

end InferenceControlPlane.Python.JsonText
