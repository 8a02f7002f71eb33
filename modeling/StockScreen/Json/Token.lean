import StockScreen.Json.Number

/-! # Tokens of JSON texts

A text is a list of tokens with blanks between them. It ends at the first
place where no token begins.
-/

namespace StockScreen.Json

inductive Token
  | openBrace
  | closeBrace
  | openBracket
  | closeBracket
  | comma
  | colon
  | null
  | bool (b : Bool)
  | number (n : Number)
  /-- The text of a string, unless it has half a surrogate pair. -/
  | string (s : Option String)
  | malformed

/-- A character of a string, or half a surrogate pair. -/
inductive CodeUnit
  | char (c : Char)
  | surrogate (n : Nat)

def hexValue? (c : Char) : Option Nat :=
  if c.isDigit then some (c.toNat - '0'.toNat)
  else if 'a' ≤ c ∧ c ≤ 'f' then some (c.toNat - 'a'.toNat + 10)
  else if 'A' ≤ c ∧ c ≤ 'F' then some (c.toNat - 'A'.toNat + 10)
  else none

def CodeUnit.ofHex? (a b c d : Char) : Option CodeUnit := do
  let n := (((← hexValue? a) * 16 + (← hexValue? b)) * 16 + (← hexValue? c)) * 16 + (← hexValue? d)
  pure (if 0xD800 ≤ n ∧ n < 0xE000 then .surrogate n else .char (Char.ofNat n))

def escaped? (c : Char) : Option Char :=
  match c with
  | '"' => some '"'
  | '\\' => some '\\'
  | '/' => some '/'
  | 'b' => some '\x08'
  | 'f' => some '\x0c'
  | 'n' => some '\n'
  | 'r' => some '\r'
  | 't' => some '\t'
  | _ => none

/-- The characters up to the closing quote, and what follows it. -/
def takeUnits? : List Char → Option (List CodeUnit × List Char)
  | [] => none
  | '"' :: cs => some ([], cs)
  | '\\' :: 'u' :: a :: b :: c :: d :: cs =>
    match CodeUnit.ofHex? a b c d with
    | some u => (takeUnits? cs).map fun (us, rest) => (u :: us, rest)
    | none => none
  | '\\' :: e :: cs =>
    match escaped? e with
    | some c => (takeUnits? cs).map fun (us, rest) => (.char c :: us, rest)
    | none => none
  | c :: cs =>
    if c = '\\' ∨ c.toNat < 0x20 then none
    else (takeUnits? cs).map fun (us, rest) => (.char c :: us, rest)

def isHigh (n : Nat) : Bool := n < 0xDC00

/-- Join the halves of surrogate pairs. -/
def joinUnits? : List CodeUnit → Option (List Char)
  | [] => some []
  | .char c :: us => (joinUnits? us).map (c :: ·)
  | .surrogate hi :: .surrogate lo :: us =>
    if isHigh hi && !isHigh lo then
      (joinUnits? us).map (Char.ofNat (0x10000 + (hi - 0xD800) * 0x400 + (lo - 0xDC00)) :: ·)
    else none
  | .surrogate _ :: _ => none

theorem length_rest_takeUnits {cs rest : List Char} {us : List CodeUnit}
    (h : takeUnits? cs = some (us, rest)) : rest.length < cs.length := by
  fun_induction takeUnits? cs generalizing us rest with
  | case1 => simp at h
  | case2 => simp_all
  | case3 a b c d cs u hu ih =>
    obtain ⟨⟨us', r⟩, hr, he⟩ := Option.map_eq_some_iff.1 h
    cases he
    have := ih hr
    simp only [List.length_cons]
    omega
  | case4 => simp at h
  | case5 e cs hne c hc ih =>
    obtain ⟨⟨us', r⟩, hr, he⟩ := Option.map_eq_some_iff.1 h
    cases he
    have := ih hr
    simp only [List.length_cons]
    omega
  | case6 => simp at h
  | case7 => simp at h
  | case8 c cs _ _ _ hc ih =>
    obtain ⟨⟨us', r⟩, hr, he⟩ := Option.map_eq_some_iff.1 h
    cases he
    exact Nat.lt_succ_of_lt (ih hr)

def isBlank (c : Char) : Bool := c == ' ' || c == '\n' || c == '\t' || c == '\r'

/-- What follows `word`, if the characters begin with it. -/
def skipWord? : List Char → List Char → Option (List Char)
  | [], cs => some cs
  | _ :: _, [] => none
  | w :: ws, c :: cs => if w = c then skipWord? ws cs else none

theorem length_rest_skipWord {ws cs rest : List Char} (h : skipWord? ws cs = some rest) :
    rest.length ≤ cs.length := by
  fun_induction skipWord? ws cs with
  | case1 => simp_all
  | case2 => simp at h
  | case3 w ws cs ih => exact Nat.le_succ_of_le (ih h)
  | case4 => simp at h

def word? (c : Char) : Option (List Char × Token) :=
  match c with
  | 'n' => some ("ull".toList, .null)
  | 't' => some ("rue".toList, .bool true)
  | 'f' => some ("alse".toList, .bool false)
  | _ => none

def mark? (c : Char) : Option Token :=
  match c with
  | '\x7b' => some .openBrace
  | '\x7d' => some .closeBrace
  | '[' => some .openBracket
  | ']' => some .closeBracket
  | ',' => some .comma
  | ':' => some .colon
  | _ => none

/-- The token that begins with `c`, which is not blank, and what follows it. -/
def takeToken? (c : Char) (cs : List Char) : Option (Token × List Char) :=
  match mark? c with
  | some t => some (t, cs)
  | none =>
    if c = '"' then
      (takeUnits? cs).map fun (us, rest) => (.string ((joinUnits? us).map String.ofList), rest)
    else match word? c with
      | some (word, t) => (skipWord? word cs).map fun rest => (t, rest)
      | none => (takeNumeral? c cs).map fun (n, rest) => (.number n.value, rest)

theorem length_rest_takeToken {c : Char} {cs rest : List Char} {t : Token}
    (h : takeToken? c cs = some (t, rest)) : rest.length ≤ cs.length := by
  unfold takeToken? at h
  split at h
  · cases h
    exact Nat.le_refl _
  · split at h
    · obtain ⟨⟨us, r⟩, hr, he⟩ := Option.map_eq_some_iff.1 h
      cases he
      exact Nat.le_of_lt (length_rest_takeUnits hr)
    · split at h
      · obtain ⟨r, hr, he⟩ := Option.map_eq_some_iff.1 h
        cases he
        exact length_rest_skipWord hr
      · obtain ⟨⟨n, r⟩, hr, he⟩ := Option.map_eq_some_iff.1 h
        cases he
        exact length_rest_takeNumeral hr

def tokens : List Char → List Token
  | [] => []
  | c :: cs =>
    if isBlank c then tokens cs
    else match _h : takeToken? c cs with
      | some (t, rest) => t :: tokens rest
      | none => [.malformed]
termination_by cs => cs.length
decreasing_by
  · simp
  · have := length_rest_takeToken ‹_›
    simp only [List.length_cons]
    omega

end StockScreen.Json
