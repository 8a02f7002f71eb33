/-! # Texts

Blanks around texts, the case of their letters, and lists of texts in order.
A blank is a character with the Unicode property `White_Space`; zero-width
characters are none. Keywords, labels and symbols are ASCII, so their
comparison folds the letters `A` to `Z` only.
-/

namespace StockScreen

namespace Text

def isBlank (c : Char) : Bool :=
  let n := c.toNat
  (9 ≤ n && n ≤ 13) || n == 0x20 || n == 0x85 || n == 0xA0 || n == 0x1680 ||
    (0x2000 ≤ n && n ≤ 0x200A) || n == 0x2028 || n == 0x2029 || n == 0x202F ||
    n == 0x205F || n == 0x3000

def skipBlanks (cs : List Char) : List Char := cs.dropWhile isBlank

/-- Drop blanks on both sides. -/
def trimChars (cs : List Char) : List Char := (skipBlanks (skipBlanks cs).reverse).reverse

def trim (s : String) : String := String.ofList (trimChars s.toList)

def asciiLower (s : String) : String := String.ofList (s.toList.map Char.toLower)

def sameLetters (a b : String) : Bool := asciiLower a == asciiLower b

def inRuns (runs : List (Nat × Nat)) (c : Char) : Bool :=
  runs.any fun (first, last) => first ≤ c.toNat && c.toNat ≤ last

end Text

/-- The distinct elements of `xs`, arranged by `le`. -/
def arrange {α : Type} [BEq α] (le : α → α → Bool) (xs : List α) : List α :=
  (xs.mergeSort le).eraseReps

/-- The distinct texts in ascending order of their characters. -/
def ascending (xs : List String) : List String := arrange (fun a b => decide (a ≤ b)) xs

/-- The distinct texts in descending order of their characters. -/
def descending (xs : List String) : List String := arrange (fun a b => decide (b ≤ a)) xs

end StockScreen
