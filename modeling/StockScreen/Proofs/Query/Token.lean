import StockScreen.Query.Select

/-! # Tokens of statements

The text of a statement falls into words, numbers, quoted texts and symbols.
Texts stand between single quotes and names between double ones, and a quote
mark of its own is written twice in them. Words that are keywords of the
grammar are told apart in any letter case.
-/

namespace StockScreen.Query

inductive Keyword | SELECT | AS | FROM | LEFT | JOIN | ON | WHERE | AND | IN
  deriving DecidableEq, Repr

def Keyword.all : List Keyword := [SELECT, AS, FROM, LEFT, JOIN, ON, WHERE, AND, IN]

def Keyword.spelling : Keyword → String
  | SELECT => "SELECT"
  | AS => "AS"
  | FROM => "FROM"
  | LEFT => "LEFT"
  | JOIN => "JOIN"
  | ON => "ON"
  | WHERE => "WHERE"
  | AND => "AND"
  | IN => "IN"

def Keyword.read? (word : String) : Option Keyword :=
  all.find? fun k => Text.sameLetters k.spelling word

inductive Token
  | keyword (k : Keyword)
  | word (s : String)
  | name (s : String)
  | text (s : String)
  | number (n : Nat)
  | op (c : Comparison)
  | dot
  | comma
  | opening
  | closing
  deriving DecidableEq, Repr

def isSpace (c : Char) : Bool := [' ', '\t', '\n', '\r', '\x0c'].contains c

def isWordChar (c : Char) : Bool := c.isAlphanum || c == '_' || 0x80 ≤ c.toNat

def decimalValue (digits : List Char) : Nat :=
  digits.foldl (fun n c => 10 * n + (c.toNat - '0'.toNat)) 0

/-- The token of some word characters. With a digit in front they have to be a number. -/
def wordToken? (w : List Char) : Option Token :=
  if w.all Char.isDigit then some (.number (decimalValue w))
  else if w.head?.any Char.isDigit then none
  else match Keyword.read? (String.ofList w) with
    | some k => some (.keyword k)
    | none => some (.word (String.ofList w))

/-- Read to the mark that closes a quoted text. Of two marks the second one belongs to the text. -/
def unquote (q : Char) : List Char → Option (List Char × List Char)
  | [] => none
  | c :: cs =>
    if c = q then
      match cs with
      | [] => some ([], [])
      | d :: ds =>
        if d = q then (unquote q ds).map fun (s, rest) => (q :: s, rest) else some ([], d :: ds)
    else (unquote q cs).map fun (s, rest) => (c :: s, rest)

def symbol? : Char → List Char → Option (Token × List Char)
  | '.', cs => some (.dot, cs)
  | ',', cs => some (.comma, cs)
  | '(', cs => some (.opening, cs)
  | ')', cs => some (.closing, cs)
  | '=', cs => some (.op .equal, cs)
  | '<', '=' :: cs => some (.op .atMost, cs)
  | '<', cs => some (.op .less, cs)
  | '>', '=' :: cs => some (.op .atLeast, cs)
  | '>', cs => some (.op .greater, cs)
  | '\'', cs => (unquote '\'' cs).map fun (s, rest) => (.text (String.ofList s), rest)
  | '"', cs => (unquote '"' cs).map fun (s, rest) => (.name (String.ofList s), rest)
  | _, _ => none

def token? (c : Char) (cs : List Char) : Option (Token × List Char) :=
  if isWordChar c then
    (wordToken? (c :: cs.takeWhile isWordChar)).map (·, cs.dropWhile isWordChar)
  else symbol? c cs

section

variable {q c : Char} {cs s rest : List Char} {t : Token}

theorem length_of_unquote (h : unquote q cs = some (s, rest)) : rest.length ≤ cs.length := by
  fun_induction unquote q cs generalizing s rest with
  | case1 => cases h
  | case2 =>
    cases h
    exact Nat.zero_le _
  | case3 ds ih =>
    obtain ⟨⟨s', rest'⟩, hs, heq⟩ := Option.map_eq_some_iff.mp h
    cases heq
    have := ih hs
    simp only [List.length_cons]
    omega
  | case4 =>
    cases h
    exact Nat.le_succ _
  | case5 c cs hc ih =>
    obtain ⟨⟨s', rest'⟩, hs, heq⟩ := Option.map_eq_some_iff.mp h
    cases heq
    exact Nat.le_succ_of_le (ih hs)

theorem length_of_symbol? (h : symbol? c cs = some (t, rest)) : rest.length ≤ cs.length := by
  unfold symbol? at h
  split at h
  case h_10 | h_11 =>
    obtain ⟨⟨s, rest'⟩, hs, heq⟩ := Option.map_eq_some_iff.mp h
    cases heq
    exact length_of_unquote hs
  all_goals
    cases h
  all_goals simp

theorem length_of_token? (h : token? c cs = some (t, rest)) : rest.length ≤ cs.length := by
  unfold token? at h
  split at h
  · obtain ⟨t', -, heq⟩ := Option.map_eq_some_iff.mp h
    cases heq
    exact (List.dropWhile_sublist isWordChar).length_le
  · exact length_of_symbol? h

end

def lex : List Char → Option (List Token)
  | [] => some []
  | c :: cs =>
    if isSpace c then lex cs
    else match _h : token? c cs with
      | none => none
      | some (t, rest) => (lex rest).map (t :: ·)
termination_by cs => cs.length
decreasing_by
  · exact Nat.lt_succ_self _
  · exact Nat.lt_succ_of_le (length_of_token? _h)

end StockScreen.Query
