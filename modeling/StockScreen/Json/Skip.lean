import StockScreen.Json.Decode

/-! # Skipped values

A value of no interest is passed over token by token, whatever its depth.
-/

namespace StockScreen.Json

inductive Frame | array | object
  deriving DecidableEq, Repr

inductive Expected | value | valueOrEnd | key | keyOrEnd | colon | commaOrEnd
  deriving DecidableEq, Repr

/-- A place inside a value: the arrays and objects around it, and what may come next. -/
structure Place where
  frames : List Frame
  expected : Expected
  deriving DecidableEq, Repr

def Place.enter? (frames : List Frame) : Token → Option Place
  | .openBracket => some ⟨.array :: frames, .valueOrEnd⟩
  | .openBrace => some ⟨.object :: frames, .keyOrEnd⟩
  | .null | .bool _ | .number _ | .string _ => some ⟨frames, .commaOrEnd⟩
  | _ => none

/-- The place behind a token, if the token can stand there. -/
def Place.step? : Place → Token → Option Place
  | ⟨.array :: frames, .valueOrEnd⟩, .closeBracket => some ⟨frames, .commaOrEnd⟩
  | ⟨frames, .valueOrEnd⟩, t | ⟨frames, .value⟩, t => enter? frames t
  | ⟨.object :: frames, .keyOrEnd⟩, .closeBrace => some ⟨frames, .commaOrEnd⟩
  | ⟨frames, .keyOrEnd⟩, .string _ | ⟨frames, .key⟩, .string _ => some ⟨frames, .colon⟩
  | ⟨frames, .colon⟩, .colon => some ⟨frames, .value⟩
  | ⟨.array :: frames, .commaOrEnd⟩, .comma => some ⟨.array :: frames, .value⟩
  | ⟨.object :: frames, .commaOrEnd⟩, .comma => some ⟨.object :: frames, .key⟩
  | ⟨.array :: frames, .commaOrEnd⟩, .closeBracket => some ⟨frames, .commaOrEnd⟩
  | ⟨.object :: frames, .commaOrEnd⟩, .closeBrace => some ⟨frames, .commaOrEnd⟩
  | _, _ => none

/-- What follows the value that `p` is in. -/
def skipFrom (p : Place) (ts : List Token) : Except Fault (List Token) :=
  if p = ⟨[], .commaOrEnd⟩ then .ok ts
  else match ts with
    | [] => .error .malformed
    | t :: ts =>
      match p.step? t with
      | some p => skipFrom p ts
      | none => .error .malformed

def skip : List Token → Except Fault (List Token) := skipFrom ⟨[], .value⟩

end StockScreen.Json
