import Relief.Json.Fault

set_option autoImplicit false

/-! # Scanning JSON: blanks, words and strings

The readers of a document work on its characters from left to right. Each takes the characters
that are left and answers with a value and the characters after it, or with the first fault met.
This module holds the parts that mean the same wherever they stand. -/

namespace Relief.Json

/-- A reader of an `α` from the front of the characters. -/
abbrev Reader (α : Type) := List Char → Except Fault (α × List Char)

/-! ## Blanks and words -/

/-- The four characters that may stand between the parts of a document. -/
def isBlank (c : Char) : Bool := c == ' ' || c == '\n' || c == '\t' || c == '\r'

/-- The characters after the blanks at the front. -/
def skipBlanks (cs : List Char) : List Char := cs.dropWhile isBlank

/-- Passes over the rest of a word whose first letter has been seen. -/
def skipWord : (word : List Char) → List Char → Except Fault (List Char)
  | [], cs => .ok cs
  | _ :: _, [] => .error .endInValue
  | w :: word, c :: cs => if w = c then skipWord word cs else .error .expectedIdent

/-! ## Escapes -/

/-- The value of a hexadecimal digit of either case. -/
def hexValue? (c : Char) : Option Nat :=
  if '0' ≤ c ∧ c ≤ '9' then some (c.toNat - '0'.toNat)
  else if 'a' ≤ c ∧ c ≤ 'f' then some (c.toNat - 'a'.toNat + 10)
  else if 'A' ≤ c ∧ c ≤ 'F' then some (c.toNat - 'A'.toNat + 10)
  else none

/-- The value of four hexadecimal digits. -/
def hexValue4? (a b c d : Char) : Option Nat :=
  match hexValue? a, hexValue? b, hexValue? c, hexValue? d with
  | some a, some b, some c, some d => some (((a * 16 + b) * 16 + c) * 16 + d)
  | _, _, _, _ => none

/-- The fault of four digits that are not there: the text ends when fewer than four bytes are left,
    and otherwise they are no digits. -/
def hexFault (cs : List Char) : Fault :=
  if (cs.take 4).foldl (fun n c => n + c.utf8Size) 0 < 4 then .endInString else .invalidEscape

/-- The character that an escape of one letter stands for. -/
def simpleEscape? (c : Char) : Option Char :=
  match c with
  | '"' => some '"'
  | '\\' => some '\\'
  | '/' => some '/'
  | 'b' => some '\x08'
  | 'f' => some '\x0c'
  | 'n' => some '\n'
  | 'r' => some '\r'
  | 't' => some '\t'
  | _ => none

/-- The first halves of the pairs that name the characters above `\uffff`. -/
def isLeading (n : Nat) : Bool := 0xd800 ≤ n && n ≤ 0xdbff

/-- The second halves. -/
def isTrailing (n : Nat) : Bool := 0xdc00 ≤ n && n ≤ 0xdfff

/-- The character that a pair of halves names. -/
def joinHalves (leading trailing : Nat) : Char :=
  Char.ofNat (0x10000 + (leading - 0xd800) * 0x400 + (trailing - 0xdc00))

/-! ## Strings -/

/-- The fault of what follows a leading half when it is no trailing half. -/
def pairFault : List Char → Fault
  | [] => .endInString
  | ['\\'] => .endInString
  | '\\' :: 'u' :: cs => hexFault cs
  | _ => .endOfHexEscape

/-- Reads a string whose opening quote has been passed, up to its closing quote. -/
def readString : Reader (List Char)
  | [] => .error .endInString
  | '"' :: cs => .ok ([], cs)
  | '\\' :: 'u' :: a :: b :: c :: d :: cs =>
    match hexValue4? a b c d with
    | none => .error .invalidEscape
    | some n =>
      if isTrailing n then .error .loneSurrogate
      else if isLeading n then
        match cs with
        | '\\' :: 'u' :: e :: f :: g :: h :: rest =>
          match hexValue4? e f g h with
          | none => .error .invalidEscape
          | some m =>
            if isTrailing m then
              (readString rest).map fun (text, after) => (joinHalves n m :: text, after)
            else .error .loneSurrogate
        | _ => .error (pairFault cs)
      else (readString cs).map fun (text, after) => (Char.ofNat n :: text, after)
  | '\\' :: 'u' :: cs => .error (hexFault cs)
  | ['\\'] => .error .endInString
  | '\\' :: e :: cs =>
    match simpleEscape? e with
    | some c => (readString cs).map fun (text, after) => (c :: text, after)
    | none => .error .invalidEscape
  | c :: cs =>
    if c < ' ' then .error .controlCharacter
    else (readString cs).map fun (text, after) => (c :: text, after)

/-- Passes over a string whose opening quote has been passed. Halves of pairs need no partner in a
    string that nobody reads. -/
def skipString : List Char → Except Fault (List Char)
  | [] => .error .endInString
  | '"' :: cs => .ok cs
  | '\\' :: 'u' :: a :: b :: c :: d :: cs =>
    match hexValue4? a b c d with
    | none => .error .invalidEscape
    | some _ => skipString cs
  | '\\' :: 'u' :: cs => .error (hexFault cs)
  | ['\\'] => .error .endInString
  | '\\' :: e :: cs =>
    match simpleEscape? e with
    | some _ => skipString cs
    | none => .error .invalidEscape
  | c :: cs => if c < ' ' then .error .controlCharacter else skipString cs

end Relief.Json
