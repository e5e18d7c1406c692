import Relief.Text.Unprintable

set_option autoImplicit false

/-! # Quoted text: text inside a message

A text that is quoted in a message stands between double quotes, so that its ends can be seen.
Quotes and backslashes are escaped by a backslash, the common controls by a letter, and every other
unprintable character by its code point in hexadecimal. -/

namespace Relief.Text

/-- A code point in lower-case hexadecimal without leading zeros. -/
def hexDigits (n : Nat) : List Char := Nat.toDigits 16 n

/-- The quoted form of a character. -/
def quoteChar (c : Char) : List Char :=
  match c with
  | '\x00' => ['\\', '0']
  | '\t' => ['\\', 't']
  | '\r' => ['\\', 'r']
  | '\n' => ['\\', 'n']
  | '\\' => ['\\', '\\']
  | '"' => ['\\', '"']
  | c =>
    if isUnprintable c then '\\' :: 'u' :: '\x7b' :: hexDigits c.toNat ++ ['\x7d'] else [c]

/-- A text between double quotes. -/
def quoted (s : String) : String :=
  String.ofList ('"' :: s.toList.flatMap quoteChar ++ ['"'])

end Relief.Text
