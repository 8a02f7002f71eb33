import StockScreen.Json.Skip

/-! # Records in JSON

A record is an object with a member for each field, in any order, or an array
of the fields in their order. Other members of the object are skipped.
-/

namespace StockScreen.Json

/-- A field of records `ρ`; its value is put into a record. -/
structure Field (ρ : Type) where
  name : String
  required : Bool
  value : Decoder (ρ → ρ)

/-- A record type: how it is called, its fields, and the record before any of them is read. -/
structure Shape (ρ : Type) where
  label : String
  fields : List (Field ρ)
  blank : ρ

variable {ρ : Type}

def Field.of {α : Type} (name : String) (required : Bool) (decode : Decoder α)
    (put : α → ρ → ρ) : Field ρ where
  name
  required
  value ts := (decode ts).map fun (x, ts) => (put x, ts)

namespace Shape

/-- The first required field that is not among those seen. -/
def missing? (shape : Shape ρ) (seen : List String) : Option (Field ρ) :=
  shape.fields.find? fun f => f.required && !seen.contains f.name

/-- The members of an object up to its closing brace. -/
def members (shape : Shape ρ) : Nat → Bool → List String → ρ → Decoder ρ
  | 0, _, _, _, _ => .error .malformed
  | n + 1, first, seen, r, ts => do
    match ← nextMember first ts with
    | .closed ts =>
      match shape.missing? seen with
      | some f => throw (.missingField f.name)
      | none => pure (r, ts)
    | .item (.string (some key) :: ts) =>
      match shape.fields.find? fun f => f.name == key with
      | some f =>
        if seen.contains key then throw (.duplicateField key)
        let (put, ts) ← f.value (← colon ts)
        shape.members n false (key :: seen) (put r) ts
      | none =>
        let ts ← skip (← colon ts)
        shape.members n false seen r ts
    | .item _ => throw .malformed

/-- The remaining fields in the elements of an array; `i` elements have been read. -/
def positions (shape : Shape ρ) : List (Field ρ) → Nat → ρ → Decoder ρ
  | [], _, r, ts =>
    match ts with
    | .closeBracket :: ts => .ok (r, ts)
    | _ => .error .malformed
  | f :: fs, i, r, ts => do
    match ← nextElement (i == 0) ts with
    | .closed _ =>
      if f.required then
        throw (.invalidLength i s!"{shape.label} with {shape.fields.length} elements")
      shape.positions fs i r ts
    | .item ts =>
      let (put, ts) ← f.value ts
      shape.positions fs (i + 1) (put r) ts

def record (shape : Shape ρ) : Decoder ρ
  | .openBrace :: ts => shape.members ts.length true [] shape.blank ts
  | .openBracket :: ts => shape.positions shape.fields 0 shape.blank ts
  | ts => mismatch shape.label ts

end Shape

end StockScreen.Json
