import StockScreen.Decimal.Reader

/-! # Dates and times of day

Dates of the proleptic Gregorian calendar are read from texts such as
`2024-03-15` and numbered by days, so that the number of days between two dates
is a difference. A time of day is in whole seconds from `00:00:00` on; a minute
may have a second 60.
-/

namespace StockScreen.Calendar

/-- The leading digits, at most `width` of them, and what follows. -/
def takeDigits? (width : Nat) (cs : List Char) : Option (Nat × List Char) :=
  let ds := (cs.take width).takeWhile Char.isDigit
  if ds.isEmpty then none else some (Decimal.digitsValue 0 ds, cs.drop ds.length)

def takeNumber? (width : Nat) (cs : List Char) : Option (Nat × List Char) :=
  takeDigits? width (Text.skipBlanks cs)

/-- A number of at most four digits, or a sign and any number of digits, after blanks. -/
def takeYear? (cs : List Char) : Option (Int × List Char) :=
  match Text.skipBlanks cs with
  | '-' :: cs => (takeDigits? cs.length cs).map fun (n, rest) => (-n, rest)
  | '+' :: cs => (takeDigits? cs.length cs).map fun (n, rest) => ((n : Int), rest)
  | cs => (takeDigits? 4 cs).map fun (n, rest) => ((n : Int), rest)

def skipChar? (c : Char) : List Char → Option (List Char)
  | [] => none
  | d :: rest => if d = c then some rest else none

/-! ## Dates -/

def isLeapYear (year : Int) : Bool :=
  year % 4 == 0 && (year % 100 != 0 || year % 400 == 0)

def monthLengths (year : Int) : List Nat :=
  [31, if isLeapYear year then 29 else 28, 31, 30, 31, 30, 31, 31, 30, 31, 30, 31]

structure Date where
  year : Int
  month : Nat
  day : Nat
  deriving DecidableEq, Repr

def Date.Exists (d : Date) : Prop :=
  1 ≤ d.month ∧ 1 ≤ d.day ∧ d.day ≤ (monthLengths d.year).getD (d.month - 1) 0

instance (d : Date) : Decidable d.Exists := by unfold Date.Exists; infer_instance

/-- The days from the beginning of year 1 to the date. -/
def Date.dayNumber (d : Date) : Int :=
  let y := d.year - 1
  365 * y + y / 4 - y / 100 + y / 400 +
    (((monthLengths d.year).take (d.month - 1)).foldl (· + ·) 0 : Nat) + (d.day - 1 : Int)

/-- The days from `earlier` to `later`, negative if they are the other way round. -/
def daysBetween (earlier later : Date) : Int := later.dayNumber - earlier.dayNumber

def firstYear : Int := -262143
def lastYear : Int := 262142

/-- Year, month and day with hyphens between them; blanks may stand before each number. -/
def Date.read? (s : String) : Option Date := do
  let (year, rest) ← takeYear? s.toList
  let rest ← skipChar? '-' rest
  let (month, rest) ← takeNumber? 2 rest
  let rest ← skipChar? '-' rest
  let (day, rest) ← takeNumber? 2 rest
  let date : Date := ⟨year, month, day⟩
  if rest = [] ∧ firstYear ≤ year ∧ year ≤ lastYear ∧ date.Exists then some date else none

/-! ## Times of day -/

structure Clock where
  hour : Fin 24
  minute : Fin 60
  second : Fin 61
  deriving DecidableEq, Repr

def twoDigits (n : Nat) : List Char := [Nat.digitChar (n / 10), Nat.digitChar (n % 10)]

def Clock.text (t : Clock) : String :=
  String.ofList
    (twoDigits t.hour ++ ':' :: twoDigits t.minute ++ ':' :: twoDigits t.second)

/-- Hour, minute and second with colons between them; blanks may stand before each number. -/
def Clock.read? (s : String) : Option Clock := do
  let (hour, rest) ← takeNumber? 2 s.toList
  let rest ← skipChar? ':' rest
  let (minute, rest) ← takeNumber? 2 rest
  let rest ← skipChar? ':' rest
  let (second, rest) ← takeNumber? 2 rest
  if h : hour < 24 ∧ minute < 60 ∧ second < 61 ∧ rest = [] then
    some ⟨⟨hour, h.1⟩, ⟨minute, h.2.1⟩, ⟨second, h.2.2.1⟩⟩
  else none

end StockScreen.Calendar
