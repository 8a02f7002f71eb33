import StockScreen.Query.Request

/-! # Statements that are cut off

The text of a statement ends where it has a null character. A quoted text that
is still open there is no token.
-/

namespace StockScreen.Query

/-- A quoted text: where it starts, in bytes, its quote mark, and its characters, the last one
first. -/
structure QuotedToken where
  start : Nat
  mark : Char
  reversed : List Char
  deriving DecidableEq, Repr

def QuotedToken.add (t : QuotedToken) (c : Char) : QuotedToken :=
  { t with reversed := c :: t.reversed }

/-- Where a reader is in a statement: not in a quoted text, in one, or behind a quote mark that
closes one unless it is the first of two. -/
inductive Reader
  | outside
  | inside (t : QuotedToken)
  | closed (t : QuotedToken)
  deriving DecidableEq, Repr

namespace Reader

/-- Outside of quoted texts a quote mark begins one. -/
def start (offset : Nat) (c : Char) : Reader :=
  if c = '\'' ∨ c = '"' then .inside ⟨offset, c, [c]⟩ else .outside

def next (offset : Nat) (c : Char) : Reader → Reader
  | outside => start offset c
  | inside t => if c = t.mark then closed (t.add c) else inside (t.add c)
  | closed t => if c = t.mark then inside (t.add c) else start offset c

def read (offset : Nat) (r : Reader) : List Char → Reader
  | [] => r
  | c :: cs => read (offset + c.utf8Size) (r.next offset c) cs

end Reader

/-- The quoted text that is open at the end of a statement. -/
def openQuote? (statement : String) : Option QuotedToken :=
  match Reader.outside.read 0 (statement.toList.takeWhile (· != '\x00')) with
  | .inside t => some t
  | _ => none

def QuotedToken.text (t : QuotedToken) : String := String.ofList t.reversed.reverse

/-- What is reported for a statement that is cut off. -/
def QuotedToken.message (t : QuotedToken) (statement : String) : String :=
  "unrecognized token: \"" ++ t.text ++ "\" in " ++ statement ++ " at offset " ++
    String.ofList (Nat.toDigits 10 t.start)

end StockScreen.Query
