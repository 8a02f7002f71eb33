import StockScreen.Json.Token
import StockScreen.Text.Quoted

/-! # Decoding of JSON

Decoders read a value of an expected shape off a list of tokens, and stop at
the first thing that does not fit.
-/

namespace StockScreen.Json

inductive Fault
  | malformed
  | missingField (name : String)
  | duplicateField (name : String)
  | invalidType (found expected : String)
  | invalidLength (length : Nat) (expected : String)
  deriving DecidableEq, Repr

def Fault.message : Fault → String
  | malformed => "malformed JSON"
  | missingField name => s!"missing field `{name}`"
  | duplicateField name => s!"duplicate field `{name}`"
  | invalidType found expected => s!"invalid type: {found}, expected {expected}"
  | invalidLength length expected => s!"invalid length {length}, expected {expected}"

abbrev Decoder (α : Type) := List Token → Except Fault (α × List Token)

/-- What a value is that begins with a token. -/
def Token.describe? : Token → Option String
  | null => some "null"
  | bool b => some (if b then "boolean `true`" else "boolean `false`")
  | number n => n.describe?
  | string s => s.map fun s => "string " ++ Text.quoteVisible s
  | openBracket => some "sequence"
  | openBrace => some "map"
  | _ => none

def mismatch {α : Type} (expected : String) (ts : List Token) : Except Fault α :=
  match ts.head?.bind Token.describe? with
  | some found => .error (.invalidType found expected)
  | none => .error .malformed

def text : Decoder String
  | .string (some s) :: ts => .ok (s, ts)
  | ts => mismatch "a string" ts

/-- Inside brackets: the next item, or what follows the closing bracket. -/
inductive Next
  | item (ts : List Token)
  | closed (ts : List Token)

/-- Items are divided by commas; the `first` one has none before it. -/
def nextElement (first : Bool) : List Token → Except Fault Next
  | .closeBracket :: ts => .ok (.closed ts)
  | .comma :: ts => if first then .error .malformed else .ok (.item ts)
  | ts => if first then .ok (.item ts) else .error .malformed

def nextMember (first : Bool) : List Token → Except Fault Next
  | .closeBrace :: ts => .ok (.closed ts)
  | .comma :: ts => if first then .error .malformed else .ok (.item ts)
  | ts => if first then .ok (.item ts) else .error .malformed

def colon : List Token → Except Fault (List Token)
  | .colon :: ts => .ok ts
  | _ => .error .malformed

/-- The elements of an array up to its closing bracket. -/
def elements {α : Type} (decode : Decoder α) : Nat → Bool → Decoder (List α)
  | 0, _, _ => .error .malformed
  | n + 1, first, ts => do
    match ← nextElement first ts with
    | .closed ts => pure ([], ts)
    | .item ts =>
      let (x, ts) ← decode ts
      let (xs, ts) ← elements decode n false ts
      pure (x :: xs, ts)

def listOf {α : Type} (decode : Decoder α) : Decoder (List α)
  | .openBracket :: ts => elements decode ts.length true ts
  | ts => mismatch "a sequence" ts

def decodeAll {α : Type} (decode : Decoder α) (s : String) : Except Fault α := do
  match ← decode (tokens s.toList) with
  | (x, []) => pure x
  | _ => throw .malformed

end StockScreen.Json
