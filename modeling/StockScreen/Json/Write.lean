/-! # Writing JSON

A text is written as a list of lexemes, without blanks between them.
-/

namespace StockScreen.Json

abbrev Lexeme := List Char

def escape (c : Char) : List Char :=
  match c with
  | '"' => ['\\', '"']
  | '\\' => ['\\', '\\']
  | '\x08' => ['\\', 'b']
  | '\x0c' => ['\\', 'f']
  | '\n' => ['\\', 'n']
  | '\r' => ['\\', 'r']
  | '\t' => ['\\', 't']
  | c =>
    if c.toNat < 0x20 then
      ['\\', 'u', '0', '0', Nat.digitChar (c.toNat / 16), Nat.digitChar (c.toNat % 16)]
    else [c]

def quotedText (s : String) : Lexeme := '"' :: s.toList.flatMap escape ++ ['"']

def bracketed (opening closing : Char) (items : List (List Lexeme)) : List Lexeme :=
  [opening] :: List.intercalate [[',']] items ++ [[closing]]

def array (items : List (List Lexeme)) : List Lexeme := bracketed '[' ']' items

def object (members : List (String × List Lexeme)) : List Lexeme :=
  bracketed '\x7b' '\x7d' (members.map fun (key, value) => quotedText key :: [':'] :: value)

def compact (ls : List Lexeme) : String := String.ofList ls.flatten

end StockScreen.Json
