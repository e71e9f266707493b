import InferenceControlPlane.Python.Decimals
import InferenceControlPlane.Python.Dict

/-!
# JSON texts

`json.dumps` as far as texts, objects and small numbers go, with its default separators
and ASCII escapes, and `json.loads` but for the interpreter's limit on nesting. A text is
a list of characters. What the one writes, the other reads back.
-/
namespace InferenceControlPlane.Python.JsonText

/-! ## Writing -/

/-- The UTF-16 code units of a character. -/
def codeUnits (c : Char) : List ℕ :=
  if c.toNat < 0x10000 then [c.toNat]
  else [0xd800 + (c.toNat - 0x10000) / 0x400, 0xdc00 + (c.toNat - 0x10000) % 0x400]

def hexDigit (n : ℕ) : Char := if n < 10 then Char.ofNat (48 + n) else Char.ofNat (87 + n)

/-- `\uXXXX`. -/
def unitEscape (u : ℕ) : List Char :=
  ['\\', 'u', hexDigit (u / 0x1000 % 16), hexDigit (u / 0x100 % 16), hexDigit (u / 0x10 % 16),
    hexDigit (u % 16)]

/-- `ESCAPE_DCT`: characters with an escape of two letters, and its second letter. -/
def shortEscapes : List (Char × Char) :=
  [('\\', '\\'), ('"', '"'), ('\x08', 'b'), ('\x0c', 'f'), ('\n', 'n'), ('\r', 'r'), ('\t', 't')]

def escapeChar (c : Char) : List Char :=
  match shortEscapes.lookup c with
  | some letter => ['\\', letter]
  | none =>
    if 0x20 ≤ c.toNat ∧ c.toNat ≤ 0x7e then [c] else (codeUnits c).flatMap unitEscape

/-- `py_encode_basestring_ascii`. -/
def encodeString (s : String) : List Char := '"' :: s.toList.flatMap escapeChar ++ ['"']

def encodeMember (e : String × List Char) : List Char := encodeString e.1 ++ [':', ' '] ++ e.2

/-- An object, from the texts of its values. -/
def encodeObject (es : List (String × List Char)) : List Char :=
  '{' :: List.intercalate [',', ' '] (es.map encodeMember) ++ ['}']

/-! ## Reading -/

def skipSpace (cs : List Char) : List Char :=
  cs.dropWhile fun c => c = ' ' ∨ c = '\t' ∨ c = '\n' ∨ c = '\r'

def hexValue (c : Char) : Option ℕ :=
  if c.isDigit then some (c.toNat - 48)
  else if 'a' ≤ c ∧ c ≤ 'f' then some (c.toNat - 87)
  else if 'A' ≤ c ∧ c ≤ 'F' then some (c.toNat - 55)
  else none

def hexUnit (a b c d : Char) : Option ℕ := do
  let a ← hexValue a
  let b ← hexValue b
  let c ← hexValue c
  let d ← hexValue d
  return ((a * 16 + b) * 16 + c) * 16 + d

/-- The character of an escape of two letters. -/
def unescape (letter : Char) : Option Char :=
  if letter = '/' then some '/' else (shortEscapes.find? (·.2 = letter)).map Prod.fst

/-- The code units up to the closing quote, and what comes after it. -/
def scanUnits : List Char → Except PyErr (List ℕ × List Char)
  | [] => .error .valueError
  | c :: rest =>
    if c = '"' then .ok ([], rest)
    else if c = '\\' then
      match rest with
      | [] => .error .valueError
      | letter :: rest =>
        if letter = 'u' then
          match rest with
          | h₁ :: h₂ :: h₃ :: h₄ :: rest =>
            match hexUnit h₁ h₂ h₃ h₄ with
            | some u => (scanUnits rest).map fun r => (u :: r.1, r.2)
            | none => .error .valueError
          | _ => .error .valueError
        else
          match unescape letter with
          | some c => (scanUnits rest).map fun r => (c.toNat :: r.1, r.2)
          | none => .error .valueError
    else if c.toNat < 0x20 then .error .valueError
    else (scanUnits rest).map fun r => (c.toNat :: r.1, r.2)

/-- The character of one code unit. A text holds no surrogates: one that is alone is
replaced. -/
def unitChar (u : ℕ) : Char := if 0xd800 ≤ u ∧ u < 0xe000 then '\ufffd' else Char.ofNat u

def joinUnits : List ℕ → List Char
  | [] => []
  | [u] => [unitChar u]
  | u :: v :: us =>
    if 0xd800 ≤ u ∧ u < 0xdc00 ∧ 0xdc00 ≤ v ∧ v < 0xe000 then
      Char.ofNat (0x10000 + (u - 0xd800) * 0x400 + (v - 0xdc00)) :: joinUnits us
    else unitChar u :: joinUnits (v :: us)

/-- `scanstring`, after the opening quote. -/
def scanString (cs : List Char) : Except PyErr (String × List Char) :=
  (scanUnits cs).map fun r => (String.ofList (joinUnits r.1), r.2)

/-- The constants, with those that JSON itself does not have. -/
def constants : List (String × Json) :=
  [("null", .null), ("true", .bool true), ("false", .bool false), ("NaN", .float .nan),
    ("Infinity", .float .inf), ("-Infinity", .float .negInf)]

def scanConstant (cs : List Char) : Option (Json × List Char) :=
  (constants.find? fun w => w.1.toList.isPrefixOf cs).map fun w => (w.2, cs.drop w.1.length)

/-- A character out of some, if it comes next. -/
def scanOneOf (options cs : List Char) : List Char × List Char :=
  if options.any (cs.head? = some ·) then (cs.take 1, cs.tail) else ([], cs)

/-- A part of a number that counts only with digits in it: its text, and what is left. -/
def scanPart (opening signs cs : List Char) : List Char × List Char :=
  let (mark, rest) := scanOneOf opening cs
  let (sign, rest) := scanOneOf signs rest
  let digits := rest.takeWhile Char.isDigit
  if mark = [] ∨ digits = [] then ([], cs) else (mark ++ sign ++ digits, rest.drop digits.length)

/-- `_match_number`. An integer has a limit of digits; other numbers become floats. -/
def scanNumber [Runtime] (cs : List Char) : Except PyErr (Json × List Char) :=
  let (sign, body) := scanOneOf ['-'] cs
  let digits := if body.head? = some '0' then ['0'] else body.takeWhile Char.isDigit
  let (decimals, rest) := scanPart ['.'] [] (body.drop digits.length)
  let (exponent, rest) := scanPart ['e', 'E'] ['+', '-'] rest
  if digits = [] then .error .valueError
  else if decimals = [] ∧ exponent = [] then
    if maxStrDigits < digits.length then .error .valueError
    else
      let n : ℤ := numeral asciiValue digits
      .ok (.int (if sign = [] then n else -n), rest)
  else
    match Runtime.floatOfText (String.ofList (sign ++ digits ++ decimals ++ exponent)) with
    | some x => .ok (.float x, rest)
    | none => .error .valueError

/-- The character that has to come next. -/
def expect (c : Char) (cs : List Char) : Except PyErr (List Char) :=
  if cs.head? = some c then .ok cs.tail else .error .valueError

-- Every call is made with a character less to read than its caller had, so the length of
-- the text is enough fuel.
mutual

/-- `scan_once`. -/
def scanValue [Runtime] : ℕ → List Char → Except PyErr (Json × List Char)
  | 0, _ => .error .valueError
  | fuel + 1, cs =>
    if cs.head? = some '"' then (scanString cs.tail).map fun r => (.str r.1, r.2)
    else if cs.head? = some '{' then
      let rest := skipSpace cs.tail
      if rest.head? = some '}' then .ok (.obj [], rest.tail)
      else (scanMembers fuel rest).map fun r => (.obj (Dict.ofList r.1).entries, r.2)
    else if cs.head? = some '[' then
      let rest := skipSpace cs.tail
      if rest.head? = some ']' then .ok (.arr [], rest.tail)
      else (scanItems fuel rest).map fun r => (.arr r.1, r.2)
    else
      match scanConstant cs with
      | some r => .ok r
      | none => scanNumber cs

/-- The members of an object, up to its end. -/
def scanMembers [Runtime] : ℕ → List Char → Except PyErr (List (String × Json) × List Char)
  | 0, _ => .error .valueError
  | fuel + 1, cs => do
    let opened ← expect '"' cs
    let (key, rest) ← scanString opened
    let rest ← expect ':' (skipSpace rest)
    let (value, rest) ← scanValue fuel (skipSpace rest)
    let rest := skipSpace rest
    if rest.head? = some ',' then
      let (members, rest) ← scanMembers fuel (skipSpace rest.tail)
      return ((key, value) :: members, rest)
    else
      let rest ← expect '}' rest
      return ([(key, value)], rest)

/-- The items of an array, up to its end. -/
def scanItems [Runtime] : ℕ → List Char → Except PyErr (List Json × List Char)
  | 0, _ => .error .valueError
  | fuel + 1, cs => do
    let (value, rest) ← scanValue fuel cs
    let rest := skipSpace rest
    if rest.head? = some ',' then
      let (items, rest) ← scanItems fuel (skipSpace rest.tail)
      return (value :: items, rest)
    else
      let rest ← expect ']' rest
      return ([value], rest)

end

/-- `json.loads`. A byte order mark and text after the value are errors. -/
def loads [Runtime] (cs : List Char) : Except PyErr Json :=
  if cs.head? = some '\ufeff' then .error .valueError
  else do
    let (value, rest) ← scanValue (cs.length + 1) (skipSpace cs)
    if skipSpace rest = [] then return value else .error .valueError

/-! ## Texts read back -/

lemma scanUnits_quote (rest : List Char) : scanUnits ('"' :: rest) = .ok ([], rest) := by
  rw [scanUnits.eq_def]
  exact if_pos rfl

lemma scanUnits_plain {c : Char} (hquote : c ≠ '"') (hescape : c ≠ '\\') (h : 0x20 ≤ c.toNat)
    (rest : List Char) :
    scanUnits (c :: rest) = (scanUnits rest).map fun r => (c.toNat :: r.1, r.2) := by
  rw [scanUnits.eq_def]
  simp only [hquote, hescape, if_false, if_neg (not_lt.mpr h)]

lemma scanUnits_letter {letter c : Char} (hu : letter ≠ 'u') (h : unescape letter = some c)
    (rest : List Char) :
    scanUnits ('\\' :: letter :: rest) = (scanUnits rest).map fun r => (c.toNat :: r.1, r.2) := by
  rw [scanUnits.eq_def]
  simp [hu, h]

lemma hexValue_hexDigit : ∀ n < 16, hexValue (hexDigit n) = some n := by decide

lemma hexUnit_digits {u : ℕ} (h : u < 0x10000) :
    hexUnit (hexDigit (u / 0x1000 % 16)) (hexDigit (u / 0x100 % 16)) (hexDigit (u / 0x10 % 16))
      (hexDigit (u % 16)) = some u := by
  have hdigit : ∀ n, hexValue (hexDigit (n % 16)) = some (n % 16) :=
    fun n => hexValue_hexDigit _ (Nat.mod_lt n (by omega))
  have hsum : ((u / 0x1000 % 16 * 16 + u / 0x100 % 16) * 16 + u / 0x10 % 16) * 16 + u % 16 = u := by
    omega
  simp only [hexUnit, hdigit, Option.bind_eq_bind, Option.bind_some, Option.pure_def, hsum]

lemma scanUnits_unitEscape {u : ℕ} (h : u < 0x10000) (rest : List Char) :
    scanUnits (unitEscape u ++ rest) = (scanUnits rest).map fun r => (u :: r.1, r.2) := by
  simp [unitEscape, scanUnits, hexUnit_digits h]

lemma scanUnits_unitEscapes {us : List ℕ} (h : ∀ u ∈ us, u < 0x10000) (rest : List Char) :
    scanUnits (us.flatMap unitEscape ++ rest) =
      (scanUnits rest).map fun r => (us ++ r.1, r.2) := by
  induction us with
  | nil =>
    cases hrest : scanUnits rest with
    | error e => simp [hrest, Except.map]
    | ok r => simp [hrest, Except.map]
  | cons u us ih =>
    obtain ⟨hu, hus⟩ := List.forall_mem_cons.mp h
    rw [List.flatMap_cons, List.append_assoc, scanUnits_unitEscape hu, ih hus]
    cases scanUnits rest with
    | error e => rfl
    | ok r => rfl

/-- A character is no surrogate. -/
lemma char_valid (c : Char) : c.toNat < 0xd800 ∨ 0xdfff < c.toNat ∧ c.toNat < 0x110000 := c.valid

lemma codeUnits_lt (c : Char) : ∀ u ∈ codeUnits c, u < 0x10000 := by
  have hvalid := char_valid c
  intro u hu
  unfold codeUnits at hu
  split_ifs at hu with hc
  · rw [List.mem_singleton] at hu
    omega
  · simp only [List.mem_cons, List.not_mem_nil, or_false] at hu
    omega

/-- What a character is written as is read as its code units. -/
lemma scanUnits_escapeChar (c : Char) (rest : List Char) :
    scanUnits (escapeChar c ++ rest) = (scanUnits rest).map fun r => (codeUnits c ++ r.1, r.2) := by
  have hshort : ∀ e ∈ shortEscapes, unescape e.2 = some e.1 ∧ e.2 ≠ 'u' ∧
      codeUnits e.1 = [e.1.toNat] := by decide
  unfold escapeChar
  cases hletter : shortEscapes.lookup c with
  | some letter =>
    obtain ⟨before, after, hsplit, -⟩ := List.lookup_eq_some_iff.mp hletter
    obtain ⟨hback, hu, hunits⟩ := hshort (c, letter) (by simp [hsplit])
    rw [hunits]
    exact scanUnits_letter hu hback rest
  | none =>
    have hplain : c ≠ '"' ∧ c ≠ '\\' := by
      rw [List.lookup_eq_none_iff] at hletter
      constructor
      · rintro rfl
        exact absurd (hletter ('"', '"') (by decide)) (by decide)
      · rintro rfl
        exact absurd (hletter ('\\', '\\') (by decide)) (by decide)
    simp only
    split_ifs with hc
    · have hunits : codeUnits c = [c.toNat] := if_pos (by omega)
      rw [hunits]
      exact scanUnits_plain hplain.1 hplain.2 hc.1 rest
    · exact scanUnits_unitEscapes (codeUnits_lt c) rest

lemma scanUnits_escaped (cs rest : List Char) :
    scanUnits (cs.flatMap escapeChar ++ '"' :: rest) = .ok (cs.flatMap codeUnits, rest) := by
  induction cs with
  | nil => exact scanUnits_quote rest
  | cons c cs ih =>
    rw [List.flatMap_cons, List.append_assoc, scanUnits_escapeChar, ih]
    rfl

lemma joinUnits_cons {u : ℕ} (h : u < 0xd800 ∨ 0xdfff < u) (us : List ℕ) :
    joinUnits (u :: us) = Char.ofNat u :: joinUnits us := by
  have hchar : unitChar u = Char.ofNat u := if_neg (by omega)
  cases us with
  | nil => exact congrArg (fun d => [d]) hchar
  | cons v us =>
    rw [joinUnits, if_neg (by omega), hchar]

lemma joinUnits_pair {n : ℕ} (hlow : 0x10000 ≤ n) (hhigh : n < 0x110000) (us : List ℕ) :
    joinUnits ((0xd800 + (n - 0x10000) / 0x400) :: (0xdc00 + (n - 0x10000) % 0x400) :: us) =
      Char.ofNat n :: joinUnits us := by
  have hsum : 0x10000 + (0xd800 + (n - 0x10000) / 0x400 - 0xd800) * 0x400 +
      (0xdc00 + (n - 0x10000) % 0x400 - 0xdc00) = n := by
    omega
  rw [joinUnits, if_pos (by omega), hsum]

lemma joinUnits_codeUnits (cs : List Char) : joinUnits (cs.flatMap codeUnits) = cs := by
  induction cs with
  | nil => rfl
  | cons c cs ih =>
    have hvalid := char_valid c
    rw [List.flatMap_cons]
    unfold codeUnits
    split_ifs with h
    · rw [List.singleton_append, joinUnits_cons (by omega), Char.ofNat_toNat]
      exact congrArg (c :: ·) ih
    · rw [List.cons_append, List.cons_append, List.nil_append, joinUnits_pair (by omega) (by omega),
        Char.ofNat_toNat]
      exact congrArg (c :: ·) ih

/-- A text is read back up to its closing quote, whatever characters were escaped in it. -/
theorem scanString_escaped (s : String) (rest : List Char) :
    scanString (s.toList.flatMap escapeChar ++ '"' :: rest) = .ok (s, rest) := by
  rw [scanString, scanUnits_escaped]
  simp only [Except.map, joinUnits_codeUnits, String.ofList_toList]

example : encodeString "é😀\n" = "\"\\u00e9\\ud83d\\ude00\\n\"".toList := by decide

/-! ## Values read back -/

/-- What may follow a value inside an object. -/
def Delimits (rest : List Char) : Prop := rest = [] ∨ rest.head? = some ',' ∨ rest.head? = some '}'

/-- The text stands for the value: it begins with neither a space nor a byte order mark,
and is scanned with its length as fuel. -/
structure Reads [Runtime] (text : List Char) (value : Json) : Prop where
  starts : ∃ c, text.head? = some c ∧ c ≠ '\ufeff' ∧ skipSpace [c] = [c]
  scans : ∀ fuel rest, text.length ≤ fuel → Delimits rest →
    scanValue (fuel + 1) (text ++ rest) = .ok (value, rest)

variable [Runtime]

theorem reads_encodeString (s : String) : Reads (encodeString s) (.str s) where
  starts := ⟨'"', rfl, by decide, by decide⟩
  scans fuel rest _ _ := by
    have hscan := scanString_escaped s rest
    simp [encodeString, scanValue, hscan, Except.map]

theorem reads_null : Reads ['n', 'u', 'l', 'l'] .null where
  starts := ⟨'n', rfl, by decide, by decide⟩
  scans fuel rest _ _ := by
    rfl

theorem reads_one : Reads ['1'] (.int 1) where
  starts := ⟨'1', rfl, by decide, by decide⟩
  scans fuel rest _ hrest := by
    cases rest with
    | nil => rfl
    | cons c rest =>
      simp only [Delimits, List.head?_cons, Option.some.injEq, reduceCtorEq, false_or] at hrest
      rcases hrest with rfl | rfl
      · rfl
      · rfl

variable {text : List Char} {value : Json}

omit [Runtime] in
lemma skipSpace_of_head {c : Char} (h : skipSpace [c] = [c]) (cs : List Char) :
    skipSpace (c :: cs) = c :: cs := by
  simp only [skipSpace, List.dropWhile_cons] at h ⊢
  split_ifs at h with hc
  · cases h
  · exact if_neg hc

lemma Reads.skipSpace (h : Reads text value) (rest : List Char) :
    skipSpace (text ++ rest) = text ++ rest := by
  obtain ⟨c, hc, -, hspace⟩ := h.starts
  obtain ⟨cs, rfl⟩ : ∃ cs, text = c :: cs := ⟨text.tail, List.eq_cons_of_mem_head? hc⟩
  exact skipSpace_of_head hspace _

/-- A text that stands for a value is read as it. -/
theorem Reads.loads (h : Reads text value) : loads text = .ok value := by
  obtain ⟨c, hc, hmark, -⟩ := h.starts
  have hskip := h.skipSpace []
  have hscan := h.scans text.length [] le_rfl (Or.inl rfl)
  rw [List.append_nil] at hskip hscan
  rw [JsonText.loads, hc, if_neg (fun h => hmark (Option.some.inj h)), hskip, hscan]
  rfl

/-- One member of an object, and how the scanner goes on after it. -/
lemma scanMembers_member (h : Reads text value) (fuel : ℕ) (hfuel : text.length ≤ fuel)
    {rest : List Char} (hrest : Delimits rest) (key : String) :
    scanMembers (fuel + 2) (encodeMember (key, text) ++ rest) =
      if (JsonText.skipSpace rest).head? = some ',' then
        (scanMembers (fuel + 1) (JsonText.skipSpace (JsonText.skipSpace rest).tail)).map
          fun r => ((key, value) :: r.1, r.2)
      else (expect '}' (JsonText.skipSpace rest)).map fun rest => ([(key, value)], rest) := by
  have hmember : encodeMember (key, text) ++ rest =
      '"' :: (key.toList.flatMap escapeChar ++ '"' :: ':' :: ' ' :: (text ++ rest)) := by
    simp [encodeMember, encodeString]
  have hopen : ∀ cs, expect '"' ('"' :: cs) = .ok cs := fun _ => rfl
  have hcolon : ∀ cs, expect ':' (JsonText.skipSpace (':' :: cs)) = .ok cs := fun _ => rfl
  have hspace : JsonText.skipSpace (' ' :: (text ++ rest)) = text ++ rest := h.skipSpace rest
  have hok : ∀ {α β : Type} (a : α) (f : α → Except PyErr β), (Except.ok a >>= f) = f a :=
    fun _ _ => rfl
  rw [hmember, scanMembers]
  simp only [hok, hopen, scanString_escaped, hcolon, hspace, h.scans fuel rest hfuel hrest]
  split_ifs with hcomma
  · cases scanMembers (fuel + 1) (JsonText.skipSpace (JsonText.skipSpace rest).tail) with
    | error e => rfl
    | ok r => rfl
  · cases expect '}' (JsonText.skipSpace rest) with
    | error e => rfl
    | ok r => rfl

/-- The members of an object, each with the text of its value and the value. -/
def membersText (es : List (String × List Char × Json)) : List Char :=
  List.intercalate [',', ' '] (es.map fun e => encodeMember (e.1, e.2.1))

omit [Runtime] in
lemma membersText_starts (e : String × List Char × Json) (es : List (String × List Char × Json)) :
    ∃ cs, membersText (e :: es) = '"' :: cs := by
  cases es with
  | nil => exact ⟨_, rfl⟩
  | cons e' es => exact ⟨_, rfl⟩

/-- The members of an object are scanned with the length of their text as fuel. -/
lemma scanMembers_membersText {es : List (String × List Char × Json)} (hne : es ≠ [])
    (hes : ∀ e ∈ es, Reads e.2.1 e.2.2) {fuel : ℕ} (hfuel : (membersText es).length ≤ fuel)
    (rest : List Char) :
    scanMembers (fuel + 1) (membersText es ++ '}' :: rest) =
      .ok (es.map fun e => (e.1, e.2.2), rest) := by
  induction es generalizing fuel with
  | nil => exact absurd rfl hne
  | cons e es ih =>
    obtain ⟨he, hes⟩ := List.forall_mem_cons.mp hes
    have hlength : e.2.1.length + 1 ≤ (encodeMember (e.1, e.2.1)).length := by
      simp [encodeMember]
      omega
    cases es with
    | nil =>
      have htext : membersText [e] = encodeMember (e.1, e.2.1) := by simp [membersText]
      rw [htext] at hfuel ⊢
      obtain ⟨fuel, rfl⟩ : ∃ n, fuel = n + 1 := ⟨fuel - 1, by omega⟩
      have hend : Delimits ('}' :: rest) := Or.inr (Or.inr rfl)
      exact scanMembers_member he fuel (by omega) hend e.1
    | cons e' es =>
      have htext : membersText (e :: e' :: es) =
          encodeMember (e.1, e.2.1) ++ ',' :: ' ' :: membersText (e' :: es) := by
        simp [membersText, List.intercalate_cons_cons]
      rw [htext] at hfuel ⊢
      rw [List.length_append, List.length_cons, List.length_cons] at hfuel
      obtain ⟨fuel, rfl⟩ : ∃ n, fuel = n + 1 := ⟨fuel - 1, by omega⟩
      have hmore := ih (by simp) hes (show (membersText (e' :: es)).length ≤ fuel by omega)
      obtain ⟨cs, hcs⟩ := membersText_starts e' es
      rw [hcs] at hmore ⊢
      have hcomma : Delimits (',' :: ' ' :: ('"' :: cs ++ '}' :: rest)) := Or.inr (Or.inl rfl)
      have hscan := scanMembers_member he fuel (by omega) hcomma e.1
      rw [List.append_assoc]
      refine hscan.trans ?_
      have hskip : JsonText.skipSpace (JsonText.skipSpace
          (',' :: ' ' :: ('"' :: cs ++ '}' :: rest))).tail = '"' :: cs ++ '}' :: rest := rfl
      rw [hskip, hmore]
      rfl

lemma scanValue_object (fuel : ℕ) (cs : List Char) :
    scanValue (fuel + 1) ('{' :: '"' :: cs) = (scanMembers fuel ('"' :: cs)).map
      fun r => (.obj (Dict.ofList r.1).entries, r.2) := by
  rw [scanValue]
  rfl

/-- An object with distinct keys is read back; of two entries with one key, only the last would
be. -/
theorem reads_encodeObject {es : List (String × List Char × Json)}
    (hkeys : (es.map Prod.fst).Nodup) (hes : ∀ e ∈ es, Reads e.2.1 e.2.2) :
    Reads (encodeObject (es.map fun e => (e.1, e.2.1))) (.obj (es.map fun e => (e.1, e.2.2))) where
  starts := ⟨'{', rfl, by decide, by decide⟩
  scans fuel rest hfuel _ := by
    have htext : encodeObject (es.map fun e => (e.1, e.2.1)) ++ rest =
        '{' :: (membersText es ++ '}' :: rest) := by
      simp [encodeObject, membersText, Function.comp_def]
    have hlength : (membersText es).length + 2 ≤ fuel := by
      have hlength := congrArg List.length htext
      simp only [List.length_append, List.length_cons] at hlength
      omega
    rw [htext]
    cases es with
    | nil => rfl
    | cons e es =>
      obtain ⟨fuel, rfl⟩ : ∃ n, fuel = n + 1 := ⟨fuel - 1, by omega⟩
      have hscan := scanMembers_membersText (List.cons_ne_nil e es) hes
        (show (membersText (e :: es)).length ≤ fuel by omega) rest
      obtain ⟨cs, hcs⟩ := membersText_starts e es
      rw [hcs, List.cons_append] at hscan ⊢
      have hentries : (Dict.ofList ((e :: es).map fun e => (e.1, e.2.2))).entries =
          (e :: es).map fun e => (e.1, e.2.2) := by
        apply Dict.entries_ofList
        rw [List.map_map]
        exact hkeys
      rw [scanValue_object, hscan, Except.map, hentries]

end InferenceControlPlane.Python.JsonText
