import StockScreen.Text.Quoted
import StockScreen.Text.Utf8

/-! # Records of comma-separated fields

Fields are bytes with commas between them, records end with a line feed or a
carriage return. A field in quotes may hold all of these; a quote inside a
field that did not begin with one is a byte like others.
-/

namespace StockScreen.Csv

def comma : UInt8 := 44
def quoteMark : UInt8 := 34
def lineFeed : UInt8 := 10
def carriageReturn : UInt8 := 13

def endsLine (b : UInt8) : Bool := b == lineFeed || b == carriageReturn

/-- Where a reader stands in a field: at its beginning, behind its first byte, inside quotes, or
behind a quote that ends them unless another one follows. -/
inductive Mode | start | plain | inside | closing
  deriving DecidableEq, Repr

/-- What a byte does: it belongs to the field or not, or it ends the field or the record. -/
inductive Action
  | skip (next : Mode)
  | keep (next : Mode)
  | endField
  | endRecord
  deriving DecidableEq, Repr

def Mode.action (m : Mode) (b : UInt8) : Action :=
  match m with
  | .inside => if b = quoteMark then .skip .closing else .keep .inside
  | .start =>
    if b = quoteMark then .skip .inside
    else if b = comma then .endField
    else if endsLine b then .endRecord
    else .keep .plain
  | .plain =>
    if b = comma then .endField
    else if endsLine b then .endRecord
    else .keep .plain
  | .closing =>
    if b = quoteMark then .keep .inside
    else if b = comma then .endField
    else if endsLine b then .endRecord
    else .keep .plain

/-- How far a reader has come: bytes, and line feeds among them. -/
structure Distance where
  bytes : Nat := 0
  lines : Nat := 0
  deriving DecidableEq, Repr

def Distance.past (d : Distance) (b : UInt8) : Distance :=
  ⟨d.bytes + 1, if b = lineFeed then d.lines + 1 else d.lines⟩

/-- What is left of a record: the rest of the field, the fields after it, the bytes that follow, and
the way there. -/
structure Scan where
  field : List UInt8
  more : List (List UInt8)
  rest : List UInt8
  distance : Distance

namespace Scan

def past (b : UInt8) (s : Scan) : Scan := { s with distance := s.distance.past b }

def keep (b : UInt8) (s : Scan) : Scan := { s with field := b :: s.field }

def endField (s : Scan) : Scan := { s with field := [], more := s.field :: s.more }

def fields (s : Scan) : List (List UInt8) := s.field :: s.more

end Scan

def scan : Mode → List UInt8 → Scan
  | _, [] => ⟨[], [], [], {}⟩
  | m, b :: bs =>
    match m.action b with
    | .skip next => (scan next bs).past b
    | .keep next => ((scan next bs).keep b).past b
    | .endField => (scan .start bs).endField.past b
    | .endRecord => Scan.past b ⟨[], [], bs, {}⟩

/-- The first record. Empty lines before it are skipped. -/
def takeRecord? : List UInt8 → Option Scan
  | [] => none
  | b :: bs =>
    if endsLine b then (takeRecord? bs).map (Scan.past b) else some (scan .start (b :: bs))

@[simp] theorem rest_past (b : UInt8) (s : Scan) : (s.past b).rest = s.rest := rfl
@[simp] theorem rest_keep (b : UInt8) (s : Scan) : (s.keep b).rest = s.rest := rfl
@[simp] theorem rest_endField (s : Scan) : s.endField.rest = s.rest := rfl

theorem length_rest_scan_le (m : Mode) (bs : List UInt8) :
    (scan m bs).rest.length ≤ bs.length - 1 := by
  induction bs generalizing m with
  | nil => simp [scan]
  | cons b bs ih =>
    have hle : ∀ m, (scan m bs).rest.length ≤ bs.length :=
      fun m => Nat.le_trans (ih m) (Nat.sub_le ..)
    simp only [scan]
    split <;> simp [hle]

theorem length_rest_lt {bytes : List UInt8} {s : Scan} (h : takeRecord? bytes = some s) :
    s.rest.length < bytes.length := by
  induction bytes generalizing s with
  | nil => simp [takeRecord?] at h
  | cons b bs ih =>
    simp only [takeRecord?] at h
    split at h
    · obtain ⟨t, ht, rfl⟩ := Option.map_eq_some_iff.1 h
      exact Nat.lt_succ_of_lt (show t.rest.length < bs.length from ih ht)
    · cases h
      have := length_rest_scan_le .start (b :: bs)
      simp at this ⊢
      omega

/-- Where a record begins: its number, the line, and the bytes before it. -/
structure Place where
  record : Nat
  line : Nat
  byte : Nat
  deriving DecidableEq, Repr

def Place.first : Place := ⟨0, 1, 0⟩

def Place.next (p : Place) (d : Distance) : Place :=
  ⟨p.record + 1, p.line + d.lines, p.byte + d.bytes⟩

structure Record where
  place : Place
  fields : List (List UInt8)

/-- The records of `bytes`, of which the first one begins at `p`. -/
def recordsFrom (p : Place) (bytes : List UInt8) : List Record :=
  match _h : takeRecord? bytes with
  | none => []
  | some s => ⟨p, s.fields⟩ :: recordsFrom (p.next s.distance) s.rest
termination_by bytes.length
decreasing_by exact length_rest_lt (by assumption)

/-- A field as it is written: in quotes if it holds a comma, a quote or an end of line. -/
def writeField (bs : List UInt8) : List UInt8 :=
  if bs.any fun b => b == comma || b == quoteMark || endsLine b then Text.quoted quoteMark bs
  else bs

def writeFields : List (List UInt8) → List UInt8
  | [] => []
  | [f] => writeField f
  | f :: fs => writeField f ++ comma :: writeFields fs

def writeRecord (fields : List (List UInt8)) : List UInt8 := writeFields fields ++ [lineFeed]

def recordBytes (fields : List String) : List UInt8 :=
  writeRecord (fields.map fun s => Utf8.encode s.toList)

def Record.texts? (r : Record) : Option (List String) :=
  r.fields.mapM fun f => (Utf8.decode f).toOption.map String.ofList

end StockScreen.Csv
