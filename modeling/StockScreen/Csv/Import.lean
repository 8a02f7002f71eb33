import StockScreen.Cell
import StockScreen.Csv.Record
import StockScreen.Error
import StockScreen.Text.Utf8

/-! # Rows from comma-separated files

The first record names the columns, and each further one is a row. All records
have the same number of fields, and all fields are UTF-8.
-/

namespace StockScreen.Csv

inductive Fault
  | unequal (place : Place) (found expected : Nat)
  | encoding (place : Place) (field byte : Nat)
  deriving DecidableEq, Repr

def Fault.message : Fault → String
  | unequal p found expected =>
    s!"CSV error: record {p.record} (line: {p.line}, byte: {p.byte}): found record with " ++
      s!"{found} fields, but the previous record has {expected} fields"
  | encoding p field byte =>
    s!"CSV parse error: record {p.record} (line {p.line}, field: {field}, byte: {p.byte}): " ++
      s!"invalid utf-8: invalid UTF-8 in field {field} near byte index {byte}"

def textColumns : List String :=
  ["stock_id", "t", "ts", "stock_name", "industry_group", "market_type"]

/-- The cell that a text stands for: nothing, a text, or a number if it reads as one. -/
def readCell (column : String) (text : String) : Cell :=
  let text := Text.trim text
  if text = "" then .null
  else if textColumns.contains column then .text text
  else match Decimal.readInt64? text with
    | some n => .integer n
    | none => match Decimal.readFloat? text with
      | some x => .real x
      | none => .text text

/-- The texts of fields, from the field with number `n` on. -/
def decodeFields (place : Place) (n : Nat) : List (List UInt8) → Except Fault (List String)
  | [] => .ok []
  | f :: fs =>
    match Utf8.decode f with
    | .error byte => .error (.encoding place n byte)
    | .ok cs => (decodeFields place (n + 1) fs).map (String.ofList cs :: ·)

def Record.texts (r : Record) : Except Fault (List String) := decodeFields r.place 0 r.fields

/-- A row of cells. Of several cells under one name the last one stays. -/
def rowOf (cells : List (String × Cell)) : Row :=
  cells.foldr (fun c row => if row.any (·.1 == c.1) then row else c :: row) []

def Record.row (header : List String) (r : Record) : Except Fault Row :=
  if r.fields.length ≠ header.length then
    .error (.unequal r.place r.fields.length header.length)
  else r.texts.map fun texts =>
    rowOf ((header.zip texts).map fun (column, text) => (column, readCell column text))

def rowsOf (header : List String) : List Record → Except Fault (List Row)
  | [] => .ok []
  | r :: rs => do
    let row ← r.row header
    let rows ← rowsOf header rs
    pure (row :: rows)

/-- A byte order mark, if the bytes begin with one, and the bytes behind it. -/
def splitMark : List UInt8 → List UInt8 × List UInt8
  | 0xEF :: 0xBB :: 0xBF :: bs => ([0xEF, 0xBB, 0xBF], bs)
  | bs => ([], bs)

def headerFault (reason : String) : StoreFault := .access ("CSV header error: " ++ reason)

def recordFault (f : Fault) : StoreFault := .access ("CSV parse error: " ++ f.message)

def readRows (bytes : List UInt8) : Except StoreFault (List Row) :=
  let (mark, bytes) := splitMark bytes
  match takeRecord? bytes with
  | none => .ok []
  | some s =>
    match Record.texts ⟨.first, s.fields⟩ with
    | .error f => .error (headerFault f.message)
    | .ok texts =>
      let place := Place.first.next { s.distance with bytes := s.distance.bytes + mark.length }
      (rowsOf (texts.map Text.trim) (recordsFrom place s.rest)).mapError recordFault

end StockScreen.Csv
