import InferenceControlPlane.Python.JsonText

/-!
# Whole JSON documents

`json.dumps` of any value, on one line or indented, with `allow_nan=False`. A document is
read back as the value that it was written from. An object or an array is over with its
closing bracket: the scanner reads the same from any longer text, so that no beginning of a
document is taken for one.
-/
namespace InferenceControlPlane.Python.JsonText

/-! ## Writing -/

/-- The break before an item, by its depth. -/
def lineBreak (indent : Option ℕ) (depth : ℕ) : List Char :=
  match indent with
  | none => []
  | some width => '\n' :: List.replicate (width * depth) ' '

/-- What stands between two items. -/
def separator (indent : Option ℕ) (depth : ℕ) : List Char :=
  match indent with
  | none => [',', ' ']
  | some _ => ',' :: lineBreak indent depth

/-- An array or an object, from the texts of what it holds. -/
def enclose (indent : Option ℕ) (depth : ℕ) (opening closing : Char) (items : List (List Char)) :
    List Char :=
  if items = [] then [opening, closing]
  else opening :: lineBreak indent (depth + 1) ++
    List.intercalate (separator indent (depth + 1)) items ++ lineBreak indent depth ++ [closing]

mutual

/-- `json.dumps(value, indent=indent, allow_nan=False)`, inside `depth` other values. -/
def dumpValue [Runtime] (indent : Option ℕ) : ℕ → Json → Except PyErr (List Char)
  | _, .null => .ok ['n', 'u', 'l', 'l']
  | _, .bool true => .ok ['t', 'r', 'u', 'e']
  | _, .bool false => .ok ['f', 'a', 'l', 's', 'e']
  | _, .int n => (toStr (.int n)).map String.toList
  | _, .float (.finite q) => (Runtime.reprText (.float (.finite q))).map String.toList
  | _, .float _ => .error .valueError
  | _, .str s => .ok (encodeString s)
  | depth, .arr items => (dumpItems indent (depth + 1) items).map (enclose indent depth '[' ']')
  | depth, .obj fields => (dumpFields indent (depth + 1) fields).map (enclose indent depth '{' '}')

def dumpItems [Runtime] (indent : Option ℕ) : ℕ → List Json → Except PyErr (List (List Char))
  | _, [] => .ok []
  | depth, v :: vs => do
    let text ← dumpValue indent depth v
    return text :: (← dumpItems indent depth vs)

def dumpFields [Runtime] (indent : Option ℕ) :
    ℕ → List (String × Json) → Except PyErr (List (List Char))
  | _, [] => .ok []
  | depth, (key, v) :: fields => do
    let text ← dumpValue indent depth v
    return encodeMember (key, text) :: (← dumpFields indent depth fields)

end

/-- `json.dumps(value, indent=indent, allow_nan=False)`. -/
def dumps [Runtime] (indent : Option ℕ) (value : Json) : Except PyErr (List Char) :=
  dumpValue indent 0 value

/-! ## Numbers -/

/-- A row of digits that is not empty. -/
def Digits (cs : List Char) : Prop := cs ≠ [] ∧ ∀ c ∈ cs, c.isDigit = true

/-- The parts of a number in JSON text, in the shape that the scanner takes them: a sign, whole
digits without leading zeros, decimals and an exponent. -/
structure Numeral where
  sign : List Char
  whole : List Char
  decimals : List Char
  exponent : List Char
  sign_minus : sign = [] ∨ sign = ['-']
  whole_digits : Digits whole
  whole_canonical : whole.head? = some '0' → whole = ['0']
  decimals_digits : decimals = [] ∨ ∃ ds, decimals = '.' :: ds ∧ Digits ds
  exponent_digits : exponent = [] ∨ ∃ mark sign ds, exponent = mark :: (sign ++ ds) ∧
    (mark = 'e' ∨ mark = 'E') ∧ (sign = [] ∨ sign = ['+'] ∨ sign = ['-']) ∧ Digits ds

namespace Numeral

def text (m : Numeral) : List Char := m.sign ++ m.whole ++ m.decimals ++ m.exponent

/-- It has a fraction or an exponent. -/
def IsFloat (m : Numeral) : Prop := m.decimals ≠ [] ∨ m.exponent ≠ []

end Numeral

/-- What `float.__repr__` promises of a finite float: a number with a fraction or an exponent,
which `float` takes for the same value. The interpreter supplies both, so that this is an
assumption on it wherever a text is read back. Of NaN and the infinities, which `json.dumps`
refuses here, nothing is asked. -/
def Legible [Runtime] (x : PyFloat) : Prop :=
  ∀ q, x = .finite q → ∀ s, Runtime.reprText (.float x) = .ok s →
    (∃ m : Numeral, m.IsFloat ∧ s.toList = m.text) ∧ Runtime.floatOfText s = some x

/-- What can follow a value: the end, a separator, a bracket or a line break. -/
def Closes (rest : List Char) : Prop :=
  rest = [] ∨ ∃ c cs, rest = c :: cs ∧ (c = ',' ∨ c = '}' ∨ c = ']' ∨ c = '\n')

/-- The next character is no digit. -/
def Stops (rest : List Char) : Prop := ∀ c, rest.head? = some c → c.isDigit = false

lemma Closes.head {rest : List Char} (h : Closes rest) {c : Char} (hc : rest.head? = some c) :
    c = ',' ∨ c = '}' ∨ c = ']' ∨ c = '\n' := by
  rcases h with rfl | ⟨d, cs, rfl, hd⟩
  · cases hc
  · cases hc
    exact hd

lemma Closes.stops {rest : List Char} (h : Closes rest) : Stops rest := by
  intro c hc
  rcases h.head hc with rfl | rfl | rfl | rfl
  · rfl
  · rfl
  · rfl
  · rfl

lemma takeWhile_digits {ds rest : List Char} (h : Digits ds) (hrest : Stops rest) :
    (ds ++ rest).takeWhile Char.isDigit = ds := by
  rw [List.takeWhile_append_of_pos h.2]
  cases rest with
  | nil => simp
  | cons c cs => simp [hrest c rfl]

lemma scanOneOf_skip {options cs : List Char} (h : ∀ c ∈ options, cs.head? ≠ some c) :
    scanOneOf options cs = ([], cs) := by
  rw [scanOneOf, if_neg]
  intro hany
  obtain ⟨c, hc, hhead⟩ := List.any_eq_true.mp hany
  exact h c hc (of_decide_eq_true hhead)

lemma scanOneOf_take {options cs : List Char} {c : Char} (h : c ∈ options) :
    scanOneOf options (c :: cs) = ([c], cs) := by
  rw [scanOneOf, if_pos]
  · rfl
  · exact List.any_eq_true.mpr ⟨c, h, by simp⟩

lemma scanPart_skip {opening signs cs : List Char} (h : ∀ c ∈ opening, cs.head? ≠ some c) :
    scanPart opening signs cs = ([], cs) := by
  simp [scanPart, scanOneOf_skip h]

lemma Digits.head {ds : List Char} (h : Digits ds) (rest : List Char) :
    ∃ c, (ds ++ rest).head? = some c ∧ c.isDigit = true := by
  obtain ⟨c, cs, rfl⟩ := List.exists_cons_of_ne_nil h.1
  exact ⟨c, rfl, h.2 c List.mem_cons_self⟩

/-- A part with digits is taken whole. -/
lemma scanPart_take {opening signs sign ds rest : List Char} {mark : Char} (hmark : mark ∈ opening)
    (hsigns : ∀ c ∈ signs, c.isDigit = false) (hsign : sign = [] ∨ ∃ c ∈ signs, sign = [c])
    (hds : Digits ds) (hrest : Stops rest) :
    scanPart opening signs (mark :: (sign ++ ds) ++ rest) = (mark :: (sign ++ ds), rest) := by
  have hmarked : scanOneOf opening (mark :: (sign ++ ds) ++ rest) =
      ([mark], sign ++ (ds ++ rest)) := by
    rw [List.cons_append, List.append_assoc]
    exact scanOneOf_take hmark
  have hsigned : scanOneOf signs (sign ++ (ds ++ rest)) = (sign, ds ++ rest) := by
    rcases hsign with rfl | ⟨c, hc, rfl⟩
    · obtain ⟨d, hhead, hdigit⟩ := hds.head rest
      apply scanOneOf_skip
      intro c hc heq
      rw [List.nil_append, hhead, Option.some.injEq] at heq
      rw [heq, hsigns c hc] at hdigit
      cases hdigit
    · exact scanOneOf_take hc
  simp only [scanPart, hmarked, hsigned, takeWhile_digits hds hrest]
  simp [hds.1]

/-- The whole part of a number, up to what is no digit. -/
lemma scanWhole {whole rest : List Char} (hdigits : Digits whole)
    (hcanonical : whole.head? = some '0' → whole = ['0']) (hrest : Stops rest) :
    (if (whole ++ rest).head? = some '0' then ['0'] else (whole ++ rest).takeWhile Char.isDigit) =
      whole := by
  have hhead : (whole ++ rest).head? = whole.head? := by
    rw [List.head?_append_of_ne_nil whole hdigits.1]
  rw [hhead]
  split_ifs with hzero
  · exact (hcanonical hzero).symm
  · exact takeWhile_digits hdigits hrest

namespace Numeral

variable (m : Numeral)

lemma scan_exponent {rest : List Char} (hrest : Closes rest) :
    scanPart ['e', 'E'] ['+', '-'] (m.exponent ++ rest) = (m.exponent, rest) := by
  rcases m.exponent_digits with hnone | ⟨mark, sign, ds, hexponent, hmark, hsign, hds⟩
  · rw [hnone, List.nil_append]
    apply scanPart_skip
    intro c hc hhead
    have hcases := hrest.head hhead
    simp only [List.mem_cons, List.not_mem_nil, or_false] at hc
    rcases hc with rfl | rfl
    · simp at hcases
    · simp at hcases
  · rw [hexponent]
    apply scanPart_take (by simpa using hmark) (by simp) ?_ hds hrest.stops
    rcases hsign with hsign | hsign | hsign
    · exact Or.inl hsign
    · exact Or.inr ⟨'+', by simp, hsign⟩
    · exact Or.inr ⟨'-', by simp, hsign⟩

/-- After the fraction comes the exponent or what follows the number. -/
lemma exponent_head {rest : List Char} (hrest : Closes rest) {c : Char}
    (hc : (m.exponent ++ rest).head? = some c) : c.isDigit = false ∧ c ≠ '.' := by
  rcases m.exponent_digits with hnone | ⟨mark, sign, ds, hexponent, hmark, -⟩
  · rw [hnone, List.nil_append] at hc
    rcases hrest.head hc with rfl | rfl | rfl | rfl
    · decide
    · decide
    · decide
    · decide
  · rw [hexponent] at hc
    cases hc
    rcases hmark with rfl | rfl
    · decide
    · decide

lemma scan_decimals {rest : List Char} (hrest : Closes rest) :
    scanPart ['.'] [] (m.decimals ++ (m.exponent ++ rest)) = (m.decimals, m.exponent ++ rest) := by
  have hstops : Stops (m.exponent ++ rest) := fun c hc => (m.exponent_head hrest hc).1
  rcases m.decimals_digits with hnone | ⟨ds, hdecimals, hds⟩
  · rw [hnone, List.nil_append]
    apply scanPart_skip
    intro c hc hhead
    exact (m.exponent_head hrest hhead).2 (List.mem_singleton.mp hc)
  · rw [hdecimals]
    exact @scanPart_take ['.'] [] [] ds _ '.' (List.mem_singleton_self '.') (by simp)
      (Or.inl rfl) hds
      hstops

/-- The parts of a number are found in its text. -/
lemma scan_parts {rest : List Char} (hrest : Closes rest) :
    scanOneOf ['-'] (m.text ++ rest) = (m.sign, m.whole ++ (m.decimals ++ (m.exponent ++ rest))) ∧
      (if (m.whole ++ (m.decimals ++ (m.exponent ++ rest))).head? = some '0' then ['0']
        else (m.whole ++ (m.decimals ++ (m.exponent ++ rest))).takeWhile Char.isDigit) =
          m.whole := by
  have hsplit : m.text ++ rest = m.sign ++ (m.whole ++ (m.decimals ++ (m.exponent ++ rest))) := by
    simp [text]
  have hsign : scanOneOf ['-'] (m.text ++ rest) =
      (m.sign, m.whole ++ (m.decimals ++ (m.exponent ++ rest))) := by
    rw [hsplit]
    rcases m.sign_minus with hnone | hminus
    · rw [hnone, List.nil_append]
      obtain ⟨d, hhead, hdigit⟩ := m.whole_digits.head (m.decimals ++ (m.exponent ++ rest))
      apply scanOneOf_skip
      intro c hc heq
      rw [hhead, Option.some.injEq] at heq
      rw [heq, List.mem_singleton.mp hc] at hdigit
      cases hdigit
    · rw [hminus]
      exact scanOneOf_take (List.mem_singleton_self '-')
  have hstops : Stops (m.decimals ++ (m.exponent ++ rest)) := by
    intro c hc
    rcases m.decimals_digits with hnone | ⟨ds, hdecimals, -⟩
    · rw [hnone, List.nil_append] at hc
      exact (m.exponent_head hrest hc).1
    · rw [hdecimals] at hc
      cases hc
      rfl
  exact ⟨hsign, scanWhole m.whole_digits m.whole_canonical hstops⟩

section
variable [Runtime] {rest : List Char}

/-- A number without a fraction and an exponent is an integer. -/
theorem scanNumber_int (hrest : Closes rest) (hint : ¬ m.IsFloat)
    (hlength : m.whole.length ≤ maxStrDigits) :
    scanNumber (m.text ++ rest) = .ok (.int (if m.sign = [] then (numeral asciiValue m.whole : ℤ)
      else -(numeral asciiValue m.whole : ℤ)), rest) := by
  obtain ⟨hsign, hwhole⟩ := m.scan_parts hrest
  have hparts : m.decimals = [] ∧ m.exponent = [] := by
    simpa [IsFloat] using hint
  simp only [scanNumber, hsign, hwhole, List.drop_left, m.scan_decimals hrest,
    m.scan_exponent hrest, if_neg m.whole_digits.1, if_pos hparts, if_neg (not_lt.mpr hlength)]

/-- Any other number is a float. -/
theorem scanNumber_float (hrest : Closes rest) (hfloat : m.IsFloat) {x : PyFloat}
    (hx : Runtime.floatOfText (String.ofList m.text) = some x) :
    scanNumber (m.text ++ rest) = .ok (.float x, rest) := by
  obtain ⟨hsign, hwhole⟩ := m.scan_parts hrest
  have hparts : ¬ (m.decimals = [] ∧ m.exponent = []) := by
    rw [not_and_or]
    exact hfloat
  have htext : m.sign ++ m.whole ++ m.decimals ++ m.exponent = m.text := rfl
  simp only [scanNumber, hsign, hwhole, List.drop_left, m.scan_decimals hrest,
    m.scan_exponent hrest, if_neg m.whole_digits.1, if_neg hparts, htext, hx]

end

/-- A number begins with a digit or the minus sign. -/
lemma text_starts : ∃ c cs, m.text = c :: cs ∧ (c.isDigit = true ∨
    c = '-' ∧ ∃ d ds, cs = d :: ds ∧ d.isDigit = true) := by
  obtain ⟨d, ds, hwhole⟩ := List.exists_cons_of_ne_nil m.whole_digits.1
  have hdigit : d.isDigit = true := m.whole_digits.2 d (hwhole ▸ List.mem_cons_self)
  rcases m.sign_minus with hnone | hminus
  · exact ⟨d, ds ++ m.decimals ++ m.exponent, by simp [text, hnone, hwhole], Or.inl hdigit⟩
  · exact ⟨'-', d :: (ds ++ m.decimals ++ m.exponent), by simp [text, hminus, hwhole],
      Or.inr ⟨rfl, d, _, rfl, hdigit⟩⟩

end Numeral

/-! ## Integers -/

lemma digits_toDigits (n : ℕ) : Digits (Nat.toDigits 10 n) :=
  ⟨Nat.toDigits_ne_nil, fun _ hc => Nat.isDigit_of_mem_toDigits (by decide) (by decide) hc⟩

/-- Only zero is written with a zero in front. -/
lemma toDigits_head (n : ℕ) (h : (Nat.toDigits 10 n).head? = some '0') :
    Nat.toDigits 10 n = ['0'] := by
  induction n using Nat.strong_induction_on with
  | _ n ih =>
    by_cases hn : n < 10
    · rw [Nat.toDigits_of_lt_base hn] at h ⊢
      simpa using h
    · have hrec := Nat.toDigits_of_base_le (b := 10) (by decide) (show 10 ≤ n by omega)
      have hprefix : (Nat.toDigits 10 (n / 10)).head? = some '0' := by
        rwa [hrec, List.head?_append_of_ne_nil _ Nat.toDigits_ne_nil] at h
      have hzero := ih (n / 10) (by omega) hprefix
      have hvalue := Nat.ofDigitChars_ten_toDigits (n := n / 10)
      rw [hzero] at hvalue
      have hpos : n / 10 = 0 := hvalue.symm
      omega

lemma numeral_toDigits (n : ℕ) : numeral asciiValue (Nat.toDigits 10 n) = n := by
  have hvalue := Nat.ofDigitChars_ten_toDigits (n := n)
  rw [Nat.ofDigitChars_eq_foldl] at hvalue
  rw [numeral]
  exact hvalue

/-- The parts of an integer. -/
def Numeral.ofInt (n : ℤ) : Numeral where
  sign := if n < 0 then ['-'] else []
  whole := Nat.toDigits 10 n.natAbs
  decimals := []
  exponent := []
  sign_minus := by split_ifs <;> simp
  whole_digits := digits_toDigits _
  whole_canonical := toDigits_head _
  decimals_digits := Or.inl rfl
  exponent_digits := Or.inl rfl

lemma text_ofInt (n : ℤ) : (Numeral.ofInt n).text = (toString n).toList := by
  rw [Int.toString_eq_repr]
  cases n with
  | ofNat n => simp [Numeral.text, Numeral.ofInt, Int.repr, Nat.toList_repr]
  | negSucc n => simp [Numeral.text, Numeral.ofInt, Int.repr, Nat.toList_repr]

/-! ## Documents read back -/

/-- A character with which a value can begin. -/
def Opens (c : Char) : Prop := skipSpace [c] = [c] ∧ c ≠ ']' ∧ c ≠ '}' ∧ c ≠ '\ufeff'

/-- The text is scanned as the value, whatever follows it, given more fuel than the text is long:
the relation by which round trips are put together. -/
structure Scans [Runtime] (text : List Char) (value : Json) : Prop where
  starts : ∃ c cs, text = c :: cs ∧ Opens c
  scans : ∀ fuel rest, text.length < fuel → Closes rest →
    scanValue fuel (text ++ rest) = .ok (value, rest)

lemma skipSpace_opens {c : Char} (h : Opens c) (cs : List Char) :
    skipSpace (c :: cs) = c :: cs := skipSpace_of_head h.1 cs

lemma skipSpace_replicate (n : ℕ) (cs : List Char) :
    skipSpace (List.replicate n ' ' ++ cs) = skipSpace cs := by
  induction n with
  | zero => rfl
  | succ n ih => exact ih

lemma skipSpace_lineBreak (indent : Option ℕ) (depth : ℕ) (cs : List Char) :
    skipSpace (lineBreak indent depth ++ cs) = skipSpace cs := by
  cases indent with
  | none => rfl
  | some width => exact skipSpace_replicate (width * depth) cs

/-- A separator is a comma, and then space. -/
lemma separator_comma (indent : Option ℕ) (depth : ℕ) :
    ∃ space, separator indent depth = ',' :: space ∧
      ∀ cs, skipSpace (space ++ cs) = skipSpace cs := by
  cases indent with
  | none => exact ⟨[' '], rfl, fun cs => rfl⟩
  | some width => exact ⟨_, rfl, skipSpace_lineBreak (some width) depth⟩

lemma closes_lineBreak (indent : Option ℕ) (depth : ℕ) {closing : Char}
    (h : closing = '}' ∨ closing = ']') (rest : List Char) :
    Closes (lineBreak indent depth ++ closing :: rest) := by
  cases indent with
  | none => exact Or.inr ⟨closing, rest, rfl, Or.inr (h.imp_right Or.inl)⟩
  | some width => exact Or.inr ⟨'\n', _, rfl, Or.inr (Or.inr (Or.inr rfl))⟩

/-- No constant begins with a digit. -/
lemma scanConstant_digit {c : Char} (h : c.isDigit = true) (cs : List Char) :
    scanConstant (c :: cs) = none ∧ scanConstant ('-' :: c :: cs) = none := by
  have hne : ∀ d : Char, d.isDigit = false → d ≠ c := by
    intro d hd heq
    rw [heq, h] at hd
    cases hd
  have hn := hne 'n' rfl
  have ht := hne 't' rfl
  have hf := hne 'f' rfl
  have hN := hne 'N' rfl
  have hI := hne 'I' rfl
  have hminus := hne '-' rfl
  constructor
  · simp [scanConstant, constants, hn, ht, hf, hN, hI, hminus]
  · simp [scanConstant, constants, hI]

lemma ok_bind {α β : Type} (a : α) (f : α → Except PyErr β) : (Except.ok a >>= f) = f a := rfl

section
variable [Runtime]

omit [Runtime] in
lemma opens_of_digit {c : Char} (h : c.isDigit = true) : Opens c := by
  have hne : ∀ d : Char, d.isDigit = false → c ≠ d := by
    intro d hd heq
    rw [← heq, h] at hd
    cases hd
  refine ⟨?_, hne ']' rfl, hne '}' rfl, hne '\ufeff' rfl⟩
  simp [skipSpace, hne ' ' rfl, hne '\t' rfl, hne '\n' rfl, hne '\r' rfl]

omit [Runtime] in
lemma numeral_opens (m : Numeral) : ∃ c cs, m.text = c :: cs ∧ Opens c := by
  obtain ⟨c, cs, htext, hdigit | ⟨rfl, -⟩⟩ := m.text_starts
  · exact ⟨c, cs, htext, opens_of_digit hdigit⟩
  · exact ⟨'-', cs, htext, rfl, by decide, by decide, by decide⟩

/-- What begins like a number is scanned as one. -/
lemma scanValue_numeral (m : Numeral) (fuel : ℕ) (rest : List Char) :
    scanValue (fuel + 1) (m.text ++ rest) = scanNumber (m.text ++ rest) := by
  obtain ⟨c, cs, htext, hstart⟩ := m.text_starts
  have hconstant : scanConstant (c :: (cs ++ rest)) = none := by
    rcases hstart with hdigit | ⟨rfl, d, ds, rfl, hdigit⟩
    · exact (scanConstant_digit hdigit _).1
    · exact (scanConstant_digit hdigit _).2
  have hne : c ≠ '"' ∧ c ≠ '{' ∧ c ≠ '[' := by
    rcases hstart with hdigit | ⟨rfl, -⟩
    · refine ⟨?_, ?_, ?_⟩
      · rintro rfl
        cases hdigit
      · rintro rfl
        cases hdigit
      · rintro rfl
        cases hdigit
    · decide
  rw [htext, List.cons_append, scanValue]
  simp only [List.head?_cons, Option.some.injEq, hne.1, hne.2.1, hne.2.2, if_false, hconstant]

lemma scans_int {n : ℤ} {s : String} (h : toStr (.int n) = .ok s) : Scans s.toList (.int n) := by
  have hbound : n.natAbs < 10 ^ maxStrDigits ∧ s = toString n := by
    rw [toStr] at h
    split_ifs at h with hlarge
    exact ⟨not_le.mp hlarge, (Except.ok.inj h).symm⟩
  have hlength : (Numeral.ofInt n).whole.length ≤ maxStrDigits :=
    (Nat.length_toDigits_le_iff (by decide) (by decide)).mpr hbound.1
  have hvalue : (if (Numeral.ofInt n).sign = [] then
      (numeral asciiValue (Numeral.ofInt n).whole : ℤ)
        else -(numeral asciiValue (Numeral.ofInt n).whole : ℤ)) = n := by
    simp only [Numeral.ofInt, numeral_toDigits]
    by_cases hneg : n < 0
    · simp only [if_pos hneg, if_neg (List.cons_ne_nil '-' [])]
      omega
    · simp only [if_neg hneg, if_true]
      omega
  rw [hbound.2, ← text_ofInt]
  constructor
  · exact numeral_opens _
  · intro fuel rest hfuel hrest
    obtain ⟨fuel, rfl⟩ : ∃ n, fuel = n + 1 := ⟨fuel - 1, by omega⟩
    have hint : ¬ (Numeral.ofInt n).IsFloat := by simp [Numeral.IsFloat, Numeral.ofInt]
    rw [scanValue_numeral, (Numeral.ofInt n).scanNumber_int hrest hint hlength, hvalue]

lemma scans_float {q : ℚ} (hq : Legible (.finite q)) {s : String}
    (h : Runtime.reprText (.float (.finite q)) = .ok s) : Scans s.toList (.float (.finite q)) := by
  obtain ⟨⟨m, hfloat, htext⟩, hback⟩ := hq q rfl s h
  have hm : Runtime.floatOfText (String.ofList m.text) = some (.finite q) := by
    rw [← htext, String.ofList_toList]
    exact hback
  rw [htext]
  constructor
  · exact numeral_opens m
  · intro fuel rest hfuel hrest
    obtain ⟨fuel, rfl⟩ : ∃ n, fuel = n + 1 := ⟨fuel - 1, by omega⟩
    rw [scanValue_numeral, m.scanNumber_float hrest hfloat hm]

lemma scans_str (s : String) : Scans (encodeString s) (.str s) where
  starts := ⟨'"', _, rfl, rfl, by decide, by decide, by decide⟩
  scans fuel rest hfuel _ := by
    obtain ⟨fuel, rfl⟩ : ∃ n, fuel = n + 1 := ⟨fuel - 1, by omega⟩
    have hscan := scanString_escaped s rest
    simp [encodeString, scanValue, hscan, Except.map]

/-- How the scanner goes on after an item. -/
lemma scanItems_step (fuel : ℕ) (cs : List Char) :
    scanItems (fuel + 1) cs = scanValue fuel cs >>= fun r =>
      if (skipSpace r.2).head? = some ',' then
        (scanItems fuel (skipSpace (skipSpace r.2).tail)).map fun m => (r.1 :: m.1, m.2)
      else (expect ']' (skipSpace r.2)).map fun rest => ([r.1], rest) := by
  rw [scanItems]
  cases scanValue fuel cs with
  | error e => rfl
  | ok r =>
    simp only [ok_bind]
    split_ifs with hcomma
    · cases scanItems fuel (skipSpace (skipSpace r.2).tail) with
      | error e => rfl
      | ok m => rfl
    · cases expect ']' (skipSpace r.2) with
      | error e => rfl
      | ok rest => rfl

/-- How the scanner goes on after the key of a member. -/
def scanMember (fuel : ℕ) (key : String) (cs : List Char) :
    Except PyErr (List (String × Json) × List Char) :=
  scanValue fuel (skipSpace cs) >>= fun r =>
    if (skipSpace r.2).head? = some ',' then
      (scanMembers fuel (skipSpace (skipSpace r.2).tail)).map fun m => ((key, r.1) :: m.1, m.2)
    else (expect '}' (skipSpace r.2)).map fun rest => ([(key, r.1)], rest)

lemma scanMembers_step (fuel : ℕ) (cs : List Char) :
    scanMembers (fuel + 1) cs = expect '"' cs >>= fun opened => scanString opened >>= fun k =>
      expect ':' (skipSpace k.2) >>= scanMember fuel k.1 := by
  rw [scanMembers]
  cases expect '"' cs with
  | error e => rfl
  | ok opened =>
    simp only [ok_bind]
    cases scanString opened with
    | error e => rfl
    | ok k =>
      simp only [ok_bind]
      cases expect ':' (skipSpace k.2) with
      | error e => rfl
      | ok rest =>
        simp only [ok_bind, scanMember]
        cases scanValue fuel (skipSpace rest) with
        | error e => rfl
        | ok r =>
          simp only [ok_bind]
          split_ifs with hcomma
          · cases scanMembers fuel (skipSpace (skipSpace r.2).tail) with
            | error e => rfl
            | ok m => rfl
          · cases expect '}' (skipSpace r.2) with
            | error e => rfl
            | ok rest => rfl

/-- A scanner of a list reads one element, and goes on as what comes next demands. -/
def ReadsOne {β : Type} (scan : ℕ → List Char → Except PyErr (List β × List Char)) (closing : Char)
    (text : List Char) (value : β) : Prop :=
  ∀ fuel rest, text.length < fuel → Closes rest → scan (fuel + 1) (text ++ rest) =
    if (skipSpace rest).head? = some ',' then
      (scan fuel (skipSpace (skipSpace rest).tail)).map fun m => (value :: m.1, m.2)
    else (expect closing (skipSpace rest)).map fun rest => ([value], rest)

lemma readsOne_item {text : List Char} {value : Json} (h : Scans text value) :
    ReadsOne scanItems ']' text value := by
  intro fuel rest hfuel hrest
  rw [scanItems_step, h.scans fuel rest hfuel hrest, ok_bind]

lemma readsOne_member {text : List Char} {value : Json} (h : Scans text value) (key : String) :
    ReadsOne scanMembers '}' (encodeMember (key, text)) (key, value) := by
  intro fuel rest hfuel hrest
  have htext : encodeMember (key, text) ++ rest =
      '"' :: (key.toList.flatMap escapeChar ++ '"' :: ':' :: ' ' :: (text ++ rest)) := by
    simp [encodeMember, encodeString]
  have hlength : text.length < fuel := by
    refine lt_of_le_of_lt ?_ hfuel
    simp [encodeMember]
    omega
  obtain ⟨c, cs, hstart, hopens⟩ := h.starts
  have hspace : skipSpace (' ' :: (text ++ rest)) = text ++ rest := by
    rw [hstart]
    exact skipSpace_opens hopens _
  have hopen : ∀ cs, expect '"' ('"' :: cs) = .ok cs := fun _ => rfl
  have hcolon : ∀ cs, expect ':' (skipSpace (':' :: cs)) = .ok cs := fun _ => rfl
  rw [htext, scanMembers_step, hopen, ok_bind, scanString_escaped, ok_bind, hcolon, ok_bind,
    scanMember, hspace, h.scans fuel rest hlength hrest, ok_bind]

omit [Runtime] in
/-- A list is scanned up to its bracket. -/
lemma scan_texts {β : Type} {scan : ℕ → List Char → Except PyErr (List β × List Char)}
    {closing : Char} (hclosing : closing = '}' ∨ closing = ']') (indent : Option ℕ)
    (depth depth' : ℕ) {es : List (List Char × β)} (hne : es ≠ [])
    (hstarts : ∀ e ∈ es, ∃ c cs, e.1 = c :: cs ∧ Opens c)
    (hes : ∀ e ∈ es, ReadsOne scan closing e.1 e.2) (fuel : ℕ)
    (hfuel : (List.intercalate (separator indent depth) (es.map Prod.fst)).length + 1 < fuel)
    (rest : List Char) :
    scan fuel (List.intercalate (separator indent depth) (es.map Prod.fst) ++
      (lineBreak indent depth' ++ closing :: rest)) = .ok (es.map Prod.snd, rest) := by
  induction es generalizing fuel with
  | nil => exact absurd rfl hne
  | cons e es ih =>
    obtain ⟨he, hes⟩ := List.forall_mem_cons.mp hes
    obtain ⟨-, hstarts⟩ := List.forall_mem_cons.mp hstarts
    obtain ⟨fuel, rfl⟩ : ∃ n, fuel = n + 1 := ⟨fuel - 1, by omega⟩
    cases es with
    | nil =>
      simp only [List.map_cons, List.map_nil, List.intercalate_singleton] at hfuel ⊢
      have hone := he fuel _ (by omega) (closes_lineBreak indent depth' hclosing rest)
      have hspace : skipSpace (lineBreak indent depth' ++ closing :: rest) = closing :: rest := by
        rw [skipSpace_lineBreak]
        apply skipSpace_of_head
        rcases hclosing with rfl | rfl
        · rfl
        · rfl
      have hcomma : closing ≠ ',' := by
        rcases hclosing with rfl | rfl
        · decide
        · decide
      have hend : expect closing (closing :: rest) = .ok rest := by simp [expect]
      rw [hone, hspace, List.head?_cons, if_neg (by simpa using hcomma), hend]
      rfl
    | cons e' es =>
      obtain ⟨space, hcomma, hskip⟩ := separator_comma indent depth
      obtain ⟨c, cs, htext', hopens⟩ := (List.forall_mem_cons.mp hstarts).1
      obtain ⟨more, hmore⟩ : ∃ more, List.intercalate (separator indent depth)
          ((e' :: es).map Prod.fst) = c :: more := by
        cases es with
        | nil => exact ⟨cs, by simp [htext']⟩
        | cons e'' es => exact ⟨_, by simp [List.intercalate_cons_cons, htext']; rfl⟩
      have htext : List.intercalate (separator indent depth) ((e :: e' :: es).map Prod.fst) =
          e.1 ++ ',' :: (space ++ c :: more) := by
        rw [List.map_cons, List.map_cons, List.intercalate_cons_cons, ← List.map_cons,
          hmore, hcomma]
        simp
      rw [htext] at hfuel ⊢
      simp only [List.length_append, List.length_cons] at hfuel
      have hrest := ih (List.cons_ne_nil e' es) hstarts hes fuel
        (by rw [hmore]; simp; omega)
      rw [hmore] at hrest
      have hone := he fuel (',' :: (space ++ c :: more ++
        (lineBreak indent depth' ++ closing :: rest))) (by omega) (Or.inr ⟨',', _, rfl, Or.inl rfl⟩)
      have hspace : skipSpace (',' :: (space ++ c :: more ++
          (lineBreak indent depth' ++ closing :: rest))) = ',' :: (space ++ c :: more ++
            (lineBreak indent depth' ++ closing :: rest)) := rfl
      have htail : skipSpace (space ++ c :: more ++ (lineBreak indent depth' ++ closing :: rest)) =
          c :: more ++ (lineBreak indent depth' ++ closing :: rest) := by
        rw [List.append_assoc, hskip]
        exact skipSpace_opens hopens _
      rw [List.append_assoc, List.cons_append, hone]
      simp only [hspace, List.head?_cons, if_true, List.tail_cons, htail, hrest]
      rfl

omit [Runtime] in
lemma length_enclose (indent : Option ℕ) (depth : ℕ) (opening closing : Char)
    {items : List (List Char)} (h : items ≠ []) :
    (List.intercalate (separator indent (depth + 1)) items).length + 2 ≤
      (enclose indent depth opening closing items).length := by
  rw [enclose, if_neg h]
  simp
  omega

omit [Runtime] in
/-- What is enclosed begins after its bracket and a break. -/
lemma skipSpace_enclosed (indent : Option ℕ) (depth : ℕ) (opening closing : Char)
    {items : List (List Char)} (hne : items ≠ [])
    (hstarts : ∀ item ∈ items, ∃ c cs, item = c :: cs ∧ Opens c) (rest : List Char) :
    ∃ inside c cs, enclose indent depth opening closing items ++ rest = opening :: inside ∧
      Opens c ∧ skipSpace inside = c :: cs ∧
      c :: cs = List.intercalate (separator indent (depth + 1)) items ++
        (lineBreak indent depth ++ closing :: rest) := by
  obtain ⟨item, items, rfl⟩ := List.exists_cons_of_ne_nil hne
  obtain ⟨c, cs, rfl, hopens⟩ := hstarts item List.mem_cons_self
  obtain ⟨more, hmore⟩ : ∃ more, List.intercalate (separator indent (depth + 1))
      ((c :: cs) :: items) = c :: more := by
    cases items with
    | nil => exact ⟨cs, by simp⟩
    | cons item' items => exact ⟨_, by simp [List.intercalate_cons_cons]; rfl⟩
  refine ⟨lineBreak indent (depth + 1) ++
    (c :: more ++ (lineBreak indent depth ++ closing :: rest)),
    c, more ++ (lineBreak indent depth ++ closing :: rest), ?_, hopens, ?_, ?_⟩
  · rw [enclose, if_neg hne, hmore]
    simp
  · rw [skipSpace_lineBreak]
    exact skipSpace_opens hopens _
  · rw [hmore]
    simp

/-- An array is read back with its items. -/
lemma scans_array (indent : Option ℕ) (depth : ℕ) {es : List (List Char × Json)}
    (hes : ∀ e ∈ es, Scans e.1 e.2) :
    Scans (enclose indent depth '[' ']' (es.map Prod.fst)) (.arr (es.map Prod.snd)) where
  starts := by
    refine ⟨'[', (enclose indent depth '[' ']' (es.map Prod.fst)).tail, ?_, rfl, by decide,
      by decide, by decide⟩
    rw [enclose]
    split_ifs with h
    · rfl
    · rfl
  scans fuel rest hfuel _ := by
    obtain ⟨fuel, rfl⟩ : ∃ n, fuel = n + 1 := ⟨fuel - 1, by omega⟩
    by_cases hempty : es = []
    · subst hempty
      rfl
    · have hne : es.map Prod.fst ≠ [] := by simpa using hempty
      have hstarts : ∀ item ∈ es.map Prod.fst, ∃ c cs, item = c :: cs ∧ Opens c := by
        intro item hitem
        obtain ⟨e, he, rfl⟩ := List.mem_map.mp hitem
        exact (hes e he).starts
      have hlength := length_enclose indent depth '[' ']' hne
      obtain ⟨inside, c, cs, htext, hopens, hspace, hinside⟩ :=
        skipSpace_enclosed indent depth '[' ']' hne hstarts rest
      have hitems := scan_texts (Or.inr rfl) indent (depth + 1) depth hempty
        (fun e he => (hes e he).starts) (fun e he => readsOne_item (hes e he))
        fuel (by omega) rest
      rw [← hinside] at hitems
      rw [htext, scanValue]
      simp only [List.head?_cons, List.tail_cons, hspace, hitems]
      simp [Except.map, hopens.2.1]

/-- An object with distinct keys is read back with its members. -/
lemma scans_object (indent : Option ℕ) (depth : ℕ) {es : List (List Char × String × Json)}
    (hkeys : (es.map fun e => e.2.1).Nodup)
    (hes : ∀ e ∈ es, ∃ text, e.1 = encodeMember (e.2.1, text) ∧ Scans text e.2.2) :
    Scans (enclose indent depth '{' '}' (es.map Prod.fst)) (.obj (es.map Prod.snd)) where
  starts := by
    refine ⟨'{', (enclose indent depth '{' '}' (es.map Prod.fst)).tail, ?_, rfl, by decide,
      by decide, by decide⟩
    rw [enclose]
    split_ifs with h
    · rfl
    · rfl
  scans fuel rest hfuel _ := by
    obtain ⟨fuel, rfl⟩ : ∃ n, fuel = n + 1 := ⟨fuel - 1, by omega⟩
    by_cases hempty : es = []
    · subst hempty
      rfl
    · have hne : es.map Prod.fst ≠ [] := by simpa using hempty
      have hstarts : ∀ e ∈ es, ∃ c cs, e.1 = c :: cs ∧ Opens c := by
        intro e he
        obtain ⟨text, htext, -⟩ := hes e he
        exact ⟨'"', _, htext, rfl, by decide, by decide, by decide⟩
      have hstarts' : ∀ item ∈ es.map Prod.fst, ∃ c cs, item = c :: cs ∧ Opens c := by
        intro item hitem
        obtain ⟨e, he, rfl⟩ := List.mem_map.mp hitem
        exact hstarts e he
      have hlength := length_enclose indent depth '{' '}' hne
      obtain ⟨inside, c, cs, htext, hopens, hspace, hinside⟩ :=
        skipSpace_enclosed indent depth '{' '}' hne hstarts' rest
      have hmembers := scan_texts (Or.inl rfl) indent (depth + 1) depth hempty hstarts
        (fun e he => by
          obtain ⟨text, hmember, hscans⟩ := hes e he
          rw [hmember]
          exact readsOne_member hscans e.2.1)
        fuel (by omega) rest
      rw [← hinside] at hmembers
      have hentries : (Dict.ofList (es.map Prod.snd)).entries = es.map Prod.snd := by
        apply Dict.entries_ofList
        rw [List.map_map]
        exact hkeys
      rw [htext, scanValue]
      simp only [List.head?_cons, List.tail_cons, hspace, hmembers]
      simp [Except.map, hopens.2.2.1, hentries]

mutual

/-- Objects have distinct keys, and floats have legible texts. -/
def Faithful : Json → Prop
  | .float x => Legible x
  | .arr items => FaithfulItems items
  | .obj fields => (fields.map Prod.fst).Nodup ∧ FaithfulFields fields
  | _ => True

def FaithfulItems : List Json → Prop
  | [] => True
  | v :: vs => Faithful v ∧ FaithfulItems vs

def FaithfulFields : List (String × Json) → Prop
  | [] => True
  | (_, v) :: fields => Faithful v ∧ FaithfulFields fields

end

lemma faithfulItems_iff {items : List Json} : FaithfulItems items ↔ ∀ v ∈ items, Faithful v := by
  induction items with
  | nil => simp [FaithfulItems]
  | cons v vs ih => rw [FaithfulItems, List.forall_mem_cons, ih]

lemma faithfulFields_iff {fields : List (String × Json)} :
    FaithfulFields fields ↔ ∀ field ∈ fields, Faithful field.2 := by
  induction fields with
  | nil => simp [FaithfulFields]
  | cons field fields ih => rw [FaithfulFields, List.forall_mem_cons, ih]

/-- A constant is read back whatever follows it. -/
lemma scans_constant {c : Char} {cs : List Char} {value : Json} (hopens : Opens c)
    (h : ∀ fuel rest, scanValue (fuel + 1) (c :: cs ++ rest) = .ok (value, rest)) :
    Scans (c :: cs) value where
  starts := ⟨c, cs, rfl, hopens⟩
  scans fuel rest hfuel _ := by
    obtain ⟨fuel, rfl⟩ : ∃ n, fuel = n + 1 := ⟨fuel - 1, by omega⟩
    exact h fuel rest

lemma scans_null : Scans ['n', 'u', 'l', 'l'] .null :=
  scans_constant ⟨rfl, by decide, by decide, by decide⟩ fun _ _ => rfl

lemma scans_true : Scans ['t', 'r', 'u', 'e'] (.bool true) :=
  scans_constant ⟨rfl, by decide, by decide, by decide⟩ fun _ _ => rfl

lemma scans_false : Scans ['f', 'a', 'l', 's', 'e'] (.bool false) :=
  scans_constant ⟨rfl, by decide, by decide, by decide⟩ fun _ _ => rfl

omit [Runtime] in
lemma map_eq_ok {α β : Type} {x : Except PyErr α} {f : α → β} {b : β} (h : x.map f = .ok b) :
    ∃ a, x = .ok a ∧ b = f a := by
  cases x with
  | error e => cases h
  | ok a => exact ⟨a, rfl, (Except.ok.inj h).symm⟩

/-- What is read back, of a value, of the items of an array and of the members of an
object. -/
def ReadsBack (indent : Option ℕ) (value : Json) : Prop :=
  ∀ depth text, Faithful value → dumpValue indent depth value = .ok text → Scans text value

def ItemsReadBack (indent : Option ℕ) (items : List Json) : Prop :=
  ∀ depth texts, FaithfulItems items → dumpItems indent depth items = .ok texts →
    ∃ es : List (List Char × Json), texts = es.map Prod.fst ∧ items = es.map Prod.snd ∧
      ∀ e ∈ es, Scans e.1 e.2

def FieldsReadBack (indent : Option ℕ) (fields : List (String × Json)) : Prop :=
  ∀ depth texts, FaithfulFields fields → dumpFields indent depth fields = .ok texts →
    ∃ es : List (List Char × String × Json), texts = es.map Prod.fst ∧ fields = es.map Prod.snd ∧
      ∀ e ∈ es, ∃ text, e.1 = encodeMember (e.2.1, text) ∧ Scans text e.2.2

variable {indent : Option ℕ}

lemma readsBack_bool (b : Bool) : ReadsBack indent (.bool b) := by
  intro depth text _ htext
  cases b with
  | true =>
    cases htext
    exact scans_true
  | false =>
    cases htext
    exact scans_false

lemma readsBack_int (n : ℤ) : ReadsBack indent (.int n) := by
  intro depth text _ htext
  rw [dumpValue] at htext
  obtain ⟨s, hs, rfl⟩ := map_eq_ok htext
  exact scans_int hs

lemma readsBack_float (x : PyFloat) : ReadsBack indent (.float x) := by
  intro depth text hx htext
  rw [Faithful] at hx
  cases x with
  | finite q =>
    rw [dumpValue] at htext
    obtain ⟨s, hs, rfl⟩ := map_eq_ok htext
    exact scans_float hx hs
  | inf => cases htext
  | negInf => cases htext
  | nan => cases htext

lemma ItemsReadBack.array {items : List Json} (h : ItemsReadBack indent items) :
    ReadsBack indent (.arr items) := by
  intro depth text hitems htext
  rw [dumpValue] at htext
  rw [Faithful] at hitems
  obtain ⟨texts, htexts, rfl⟩ := map_eq_ok htext
  obtain ⟨es, rfl, rfl, hes⟩ := h (depth + 1) texts hitems htexts
  exact scans_array indent depth hes

lemma FieldsReadBack.object {fields : List (String × Json)} (h : FieldsReadBack indent fields) :
    ReadsBack indent (.obj fields) := by
  intro depth text hfields htext
  rw [dumpValue] at htext
  rw [Faithful] at hfields
  obtain ⟨texts, htexts, rfl⟩ := map_eq_ok htext
  obtain ⟨es, rfl, rfl, hes⟩ := h (depth + 1) texts hfields.2 htexts
  apply scans_object indent depth _ hes
  have hkeys := hfields.1
  rw [List.map_map] at hkeys
  exact hkeys

lemma ItemsReadBack.cons {v : Json} {vs : List Json} (hv : ReadsBack indent v)
    (hvs : ItemsReadBack indent vs) : ItemsReadBack indent (v :: vs) := by
  intro depth texts hitems htexts
  rw [dumpItems] at htexts
  rw [FaithfulItems] at hitems
  obtain ⟨text, htext, hrest⟩ := bind_eq_ok htexts
  obtain ⟨more, hmore, heq⟩ := bind_eq_ok hrest
  cases heq
  obtain ⟨es, rfl, rfl, hes⟩ := hvs depth more hitems.2 hmore
  exact ⟨(text, v) :: es, rfl, rfl, List.forall_mem_cons.mpr ⟨hv depth text hitems.1 htext, hes⟩⟩

lemma FieldsReadBack.cons {field : String × Json} {fields : List (String × Json)}
    (hfield : ReadsBack indent field.2) (h : FieldsReadBack indent fields) :
    FieldsReadBack indent (field :: fields) := by
  intro depth texts hfields htexts
  obtain ⟨key, v⟩ := field
  rw [dumpFields] at htexts
  rw [FaithfulFields] at hfields
  obtain ⟨text, htext, hrest⟩ := bind_eq_ok htexts
  obtain ⟨more, hmore, heq⟩ := bind_eq_ok hrest
  cases heq
  obtain ⟨es, rfl, rfl, hes⟩ := h depth more hfields.2 hmore
  exact ⟨(encodeMember (key, text), key, v) :: es, rfl, rfl, List.forall_mem_cons.mpr
    ⟨⟨text, rfl, hfield depth text hfields.1 htext⟩, hes⟩⟩

/-- Every value is read back, by induction on its structure: the parser takes exactly the text of
the value and stops behind it. -/
theorem readsBack (value : Json) : ReadsBack indent value := by
  refine @Json.rec (ReadsBack indent) (ItemsReadBack indent) (FieldsReadBack indent)
    (fun field => ReadsBack indent field.2) ?null readsBack_bool readsBack_int readsBack_float ?str
    (fun _ h => h.array) (fun _ h => h.object) ?items (fun _ _ hv hvs => .cons hv hvs) ?fields
    (fun _ _ hfield h => .cons hfield h) (fun _ _ h => h) value
  case null =>
    intro depth text _ htext
    cases htext
    exact scans_null
  case str =>
    intro s depth text _ htext
    cases htext
    exact scans_str s
  case items =>
    intro depth texts _ htexts
    cases htexts
    exact ⟨[], rfl, rfl, by simp⟩
  case fields =>
    intro depth texts _ htexts
    cases htexts
    exact ⟨[], rfl, rfl, by simp⟩

/-- A document is read back, as long as its floats are: what `json.dumps` writes, `json.loads`
parses into the same value. -/
theorem loads_dumps {value : Json} (hvalue : Faithful value)
    {text : List Char} (htext : dumps indent value = .ok text) : loads text = .ok value := by
  have hscans := readsBack value 0 text hvalue htext
  obtain ⟨c, cs, rfl, hopens⟩ := hscans.starts
  have hscan := hscans.scans ((c :: cs).length + 1) [] (by omega) (Or.inl rfl)
  rw [List.append_nil] at hscan
  rw [loads, List.head?_cons, if_neg (by simpa using hopens.2.2.2), skipSpace_opens hopens, hscan]
  rfl

end

end InferenceControlPlane.Python.JsonText
