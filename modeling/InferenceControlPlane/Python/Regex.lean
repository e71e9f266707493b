import Mathlib.Data.List.Basic
import Mathlib.Tactic.Common

/-!
# Backtracking regular expressions

The ends of the matches at a position are listed in the order in which a
backtracking matcher finds them: greedy repetition first, alternatives from left
to right. A search is the first end; `sub` replaces leftmost matches.
-/
namespace InferenceControlPlane.Python

inductive Regex where
  | eps
  | char (p : Char → Bool)
  | seq (r s : Regex)
  | alt (r s : Regex)
  | star (r : Regex)
  | boundary (isWord : Char → Bool)
  | eol

/-- A position in the text: the character before it and the text after it. -/
structure Cursor where
  prev : Option Char
  rest : List Char

namespace Regex

/-- Greedy repetition. Iterations that consume nothing are cut, so the length of
the remaining text bounds their number. -/
def starEnds (step : Cursor → List Cursor) : ℕ → Cursor → List Cursor
  | 0, c => [c]
  | n + 1, c =>
    ((step c).filter fun d => d.rest.length < c.rest.length).flatMap (starEnds step n) ++ [c]

def ends : Regex → Cursor → List Cursor
  | eps, c => [c]
  | char p, c =>
    match c.rest with
    | [] => []
    | a :: as => if p a then [⟨some a, as⟩] else []
  | seq r s, c => (ends r c).flatMap (ends s)
  | alt r s, c => ends r c ++ ends s c
  | star r, c => starEnds (ends r) c.rest.length c
  | boundary isWord, c => if c.prev.any isWord != c.rest.head?.any isWord then [c] else []
  | eol, c => if c.rest = [] ∨ c.rest = ['\n'] then [c] else []

/-- `r?`. -/
def opt (r : Regex) : Regex := alt r eps

/-- `r{n}`. -/
def times (r : Regex) : ℕ → Regex
  | 0 => eps
  | n + 1 => seq r (times r n)

/-- `r{0,n}`. -/
def upTo (r : Regex) : ℕ → Regex
  | 0 => eps
  | n + 1 => opt (seq r (upTo r n))

/-- `r+`. -/
def plus (r : Regex) : Regex := seq r (star r)

def concat (rs : List Regex) : Regex := rs.foldr seq eps

def lit (text : String) : Regex := concat (text.toList.map fun a => char (· == a))

/-- `re.match(r, text)` succeeds. -/
def isMatch (r : Regex) (text : String) : Bool := !(r.ends ⟨none, text.toList⟩).isEmpty

/-- Replace leftmost matches from a cursor on. Each round consumes a character,
so the length of the text bounds the rounds. -/
def subFrom (r : Regex) (repl : List Char) : ℕ → Cursor → List Char
  | 0, c => c.rest
  | n + 1, c =>
    let skip : List Char :=
      match c.rest with
      | [] => []
      | a :: as => a :: subFrom r repl n ⟨some a, as⟩
    match (r.ends c).head? with
    | none => skip
    | some e =>
      repl ++ if e.rest.length < c.rest.length then subFrom r repl n e else skip

/-- `re.sub(r, repl, text)`. -/
def sub (r : Regex) (repl text : String) : String :=
  String.ofList (subFrom r repl.toList (text.toList.length + 1) ⟨none, text.toList⟩)

end Regex
end InferenceControlPlane.Python
