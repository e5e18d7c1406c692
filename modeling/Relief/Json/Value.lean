import Relief.Json.Number

set_option autoImplicit false

/-! # JSON values: passing over what nobody asks for, and complaining about it

A value that no field asks for is only checked for its form, however deep it is nested. A value of
the wrong sort is read just far enough to name it: a word, a number or a string as a whole, a list
or an object by its bracket. Depth is bounded by the number of characters left, which serves as the
measure of the recursion. -/

namespace Relief.Json

/-! ## Passing over a value -/

/-- The two things a value can be nested in. -/
inductive Nest where
  | list
  | object

/-- The fault of a missing comma. -/
def Nest.expectedCommaOrEnd : Nest → Fault
  | list => .expectedListCommaOrEnd
  | object => .expectedObjectCommaOrEnd

/-- The fault of a text that ends where a comma or a closing bracket should be. -/
def Nest.earlyEnd : Nest → Fault
  | list => .endInList
  | object => .endInObject

/-- The bracket that closes. -/
def Nest.close : Nest → Char
  | list => ']'
  | object => '\x7d'

/-- Passes over a key and its colon. -/
def skipKey (cs : List Char) : Except Fault (List Char) :=
  match skipBlanks cs with
  | '"' :: rest =>
    match skipString rest with
    | .error fault => .error fault
    | .ok rest =>
      match skipBlanks rest with
      | ':' :: rest => .ok rest
      | _ :: _ => .error .expectedColon
      | [] => .error .endInObject
  | _ :: _ => .error .keyMustBeString
  | [] => .error .endInObject

mutual

/-- Passes over a value in at most `fuel` steps. -/
def skipValueWith : (fuel : Nat) → List Char → Except Fault (List Char)
  | 0, _ => .error .expectedValue
  | fuel + 1, cs =>
    match skipBlanks cs with
    | [] => .error .endInValue
    | 'n' :: rest => skipWord ['u', 'l', 'l'] rest
    | 't' :: rest => skipWord ['r', 'u', 'e'] rest
    | 'f' :: rest => skipWord ['a', 'l', 's', 'e'] rest
    | '-' :: rest => skipNumber rest
    | '"' :: rest => skipString rest
    | '[' :: rest => skipFirst fuel .list rest
    | '\x7b' :: rest => skipFirst fuel .object rest
    | c :: rest => if isDigit c then skipNumber (c :: rest) else .error .expectedValue

/-- Passes over the items after an opening bracket. -/
def skipFirst : (fuel : Nat) → Nest → List Char → Except Fault (List Char)
  | 0, _, _ => .error .expectedValue
  | fuel + 1, nest, cs =>
    match skipBlanks cs with
    | [] => .error nest.earlyEnd
    | c :: rest => if c = nest.close then .ok rest else skipItem fuel nest (c :: rest)

/-- Passes over an item, and over the items that follow it. -/
def skipItem : (fuel : Nat) → Nest → List Char → Except Fault (List Char)
  | 0, _, _ => .error .expectedValue
  | fuel + 1, nest, cs =>
    let value : Except Fault (List Char) :=
      match nest with
      | .list => .ok cs
      | .object => skipKey cs
    match value with
    | .error fault => .error fault
    | .ok value =>
      match skipValueWith fuel value with
      | .error fault => .error fault
      | .ok rest =>
        match skipBlanks rest with
        | [] => .error nest.earlyEnd
        | c :: rest =>
          if c = ',' then skipItem fuel nest rest
          else if c = nest.close then .ok rest
          else .error nest.expectedCommaOrEnd

end

/-- Passes over a value. A level of nesting takes three steps and an item one, and each takes a
    character of its own, so three times the number of characters is fuel enough. -/
def skipValue (cs : List Char) : Except Fault (List Char) :=
  skipValueWith (3 * cs.length + 3) cs

/-! ## A value of the wrong sort -/

/-- The fault of a value that stands where something else is expected, given the characters from
    its first one on. -/
def wrongType (expected : String) (cs : List Char) : Fault :=
  let found (what : Found) : Fault := .invalidType what expected
  let word (rest letters : List Char) (what : Found) : Fault :=
    match skipWord letters rest with
    | .ok _ => found what
    | .error fault => fault
  let number (negative : Bool) (rest : List Char) : Fault :=
    match readNumber negative rest with
    | .ok (.whole n, _) => found (.integer n)
    | .ok (.real x, _) => found (.number x)
    | .error fault => fault
  match cs with
  | 'n' :: rest => word rest ['u', 'l', 'l'] .null
  | 't' :: rest => word rest ['r', 'u', 'e'] (.boolean true)
  | 'f' :: rest => word rest ['a', 'l', 's', 'e'] (.boolean false)
  | '-' :: rest => number true rest
  | '"' :: rest =>
    match readString rest with
    | .ok (text, _) => found (.string (String.ofList text))
    | .error fault => fault
  | '[' :: _ => found .sequence
  | '\x7b' :: _ => found .map
  | c :: rest => if isDigit c then number false (c :: rest) else .expectedValue
  | [] => .endInValue

end Relief.Json
