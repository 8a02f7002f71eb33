import StockScreen.Text.Basic
import StockScreen.Text.HiddenTable

/-! # Quoted texts

A text between two quote marks, in which every quote mark of its own is
written twice; or, in a message, one in which every character shows on its own.
Texts are lists of characters or of bytes.
-/

namespace StockScreen.Text

section

variable {α : Type} [DecidableEq α]

def double (q : α) : List α → List α
  | [] => []
  | c :: cs => if c = q then q :: q :: double q cs else c :: double q cs

/-- `cs` between marks `q`. -/
def quoted (q : α) (cs : List α) : List α := q :: double q cs ++ [q]

def quote (q : Char) (s : String) : String := String.ofList (quoted q s.toList)

end

def isVisible (c : Char) : Bool := !inRuns hiddenRuns c

def hexDigits (n : Nat) : List Char := Nat.toDigits 16 n

/-- A character inside quotes, escaped if it is not visible. -/
def escapeVisible (c : Char) : List Char :=
  if c = '"' then ['\\', '"']
  else if c = '\\' then ['\\', '\\']
  else if c = '\n' then ['\\', 'n']
  else if c = '\r' then ['\\', 'r']
  else if c = '\t' then ['\\', 't']
  else if c.toNat = 0 then ['\\', '0']
  else if isVisible c then [c]
  else '\\' :: 'u' :: '\x7b' :: hexDigits c.toNat ++ ['\x7d']

/-- A text between quotes with all its characters visible. -/
def quoteVisible (s : String) : String :=
  String.ofList ('"' :: s.toList.flatMap escapeVisible ++ ['"'])

end StockScreen.Text
