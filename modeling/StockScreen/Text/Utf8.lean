/-! # UTF-8

Decoding of bytes. What cannot be decoded is reported by the number of bytes
that come before it. A text file that can be read holds bytes that are UTF-8
or not.
-/

namespace StockScreen

namespace Utf8

def continuation? (b : UInt8) : Option Nat :=
  if 0x80 ≤ b && b < 0xC0 then some (b.toNat - 0x80) else none

/-- The scalar value `n`, unless a shorter form, for values below `least`, fits it. -/
def scalar? (least n : Nat) : Option Char :=
  if least ≤ n ∧ n.isValidChar then some (Char.ofNat n) else none

/-- The first character of the bytes and the number of bytes after its first. -/
def first? : List UInt8 → Option (Char × Nat)
  | [] => none
  | b :: rest =>
    let lead := b.toNat
    if lead < 0x80 then (scalar? 0 lead).map (·, 0)
    else if lead < 0xC0 then none
    else if lead < 0xE0 then
      match rest with
      | b₁ :: _ => do
        let x ← continuation? b₁
        let c ← scalar? 0x80 ((lead - 0xC0) * 64 + x)
        pure (c, 1)
      | _ => none
    else if lead < 0xF0 then
      match rest with
      | b₁ :: b₂ :: _ => do
        let x ← continuation? b₁
        let y ← continuation? b₂
        let c ← scalar? 0x800 (((lead - 0xE0) * 64 + x) * 64 + y)
        pure (c, 2)
      | _ => none
    else if lead < 0xF8 then
      match rest with
      | b₁ :: b₂ :: b₃ :: _ => do
        let x ← continuation? b₁
        let y ← continuation? b₂
        let z ← continuation? b₃
        let c ← scalar? 0x10000 ((((lead - 0xF0) * 64 + x) * 64 + y) * 64 + z)
        pure (c, 3)
      | _ => none
    else none

/-- Decode bytes that begin at place `start`, or give the place of the first byte that starts no
character. -/
def decodeFrom (start : Nat) : List UInt8 → Except Nat (List Char)
  | [] => .ok []
  | b :: rest =>
    match first? (b :: rest) with
    | none => .error start
    | some (c, more) => do
      let cs ← decodeFrom (start + more + 1) (rest.drop more)
      pure (c :: cs)
termination_by bytes => bytes.length
decreasing_by simp only [List.length_drop, List.length_cons]; omega

def decode (bytes : List UInt8) : Except Nat (List Char) := decodeFrom 0 bytes

def encode (cs : List Char) : List UInt8 := cs.flatMap String.utf8EncodeChar

end Utf8

inductive FileFault | missing | noFolder | isFolder | nameTooLong | nullCharacter | encoding
  deriving DecidableEq, Repr

def FileFault.message : FileFault → String
  | missing => "No such file or directory (os error 2)"
  | noFolder => "Not a directory (os error 20)"
  | isFolder => "Is a directory (os error 21)"
  | nameTooLong => "File name too long (os error 36)"
  | nullCharacter => "file name contained an unexpected NUL byte"
  | encoding => "stream did not contain valid UTF-8"

/-- The text of a file, given its bytes or why there are none. -/
def readText (content : Except FileFault (List UInt8)) : Except FileFault String := do
  match Utf8.decode (← content) with
  | .ok cs => pure (String.ofList cs)
  | .error _ => throw .encoding

end StockScreen
