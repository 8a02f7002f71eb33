import StockScreen.Text.Basic
import StockScreen.Text.CaseTable
import StockScreen.Text.LetterTable

/-! # Small letters

Texts in small letters, for names that are compared without regard to case.
-/

namespace StockScreen.Text

/-- The small letter of a capital in one of the runs. -/
def smallIn? (n : Nat) : List (Nat × Nat × Nat × Nat) → Option Nat
  | [] => none
  | (first, last, step, small) :: runs =>
    if n < first then none
    else if n ≤ last ∧ (n - first) % step = 0 then some (small + (n - first))
    else smallIn? n runs

/-- The small letter of a capital; other characters stay. -/
def smallLetter (c : Char) : Char :=
  if c.toNat < 0x80 then c.toLower
  else match smallIn? c.toNat capitalRuns with
    | some n => Char.ofNat n
    | none => c

def isCased (c : Char) : Bool := inRuns casedRuns c

/-- A mark that may stand inside a word, such as an apostrophe or an accent. -/
def isWordMark (c : Char) : Bool := inRuns markRuns c

/-- The nearest character that is no mark is a cased letter. -/
def meetsCased (cs : List Char) : Bool :=
  match cs.dropWhile isWordMark with
  | c :: _ => isCased c
  | [] => false

/-- Small letters of `cs`, which follows the reversed characters `before`. A capital sigma that ends
a word has its final form, and a capital I with a dot keeps the dot as an accent. -/
def smallLettersAfter (before : List Char) : List Char → List Char
  | [] => []
  | c :: cs =>
    let here :=
      if c.toNat = 0x3A3 then
        if meetsCased before && !meetsCased cs then [Char.ofNat 0x3C2] else [Char.ofNat 0x3C3]
      else if c.toNat = 0x130 then ['i', Char.ofNat 0x307]
      else [smallLetter c]
    here ++ smallLettersAfter (c :: before) cs

def lowerCase (s : String) : String := String.ofList (smallLettersAfter [] s.toList)

end StockScreen.Text
