import Relief.Json.Value

set_option autoImplicit false

/-! # JSON records: objects with known fields

A record is read into a value that starts with every field at its default. Its members may come as
an object, in any order and with unknown ones between them, or as a list in the order of the fields
that may stop early. A field reader puts one member into the value; which characters it takes is
its own affair. -/

namespace Relief.Json

/-- A field of a record: its key, and how its value is read into the record. -/
structure FieldReader (α : Type) where
  key : String
  read : α → Reader α

/-- A field whose value is read on its own and then stored. -/
def FieldReader.of {α β : Type} (key : String) (read : Reader β) (store : α → β → α) :
    FieldReader α where
  key := key
  read record cs := (read cs).map fun (value, rest) => (store record value, rest)

/-- Passes over the colon after a key. -/
def skipColon (cs : List Char) : Except Fault (List Char) :=
  match skipBlanks cs with
  | ':' :: rest => .ok rest
  | _ :: _ => .error .expectedColon
  | [] => .error .endInObject

/-! ## Members -/

/-- Reads one member whose opening quote has been passed. A known key must not have been seen
    before; the value of an unknown one is passed over. -/
def readMember {α : Type} (fields : List (FieldReader α)) (seen : List String) (record : α) :
    Reader (List String × α) := fun cs =>
  match readString cs with
  | .error fault => .error fault
  | .ok (chars, rest) =>
    let key := String.ofList chars
    match fields.find? fun field => field.key == key with
    | some field =>
      if seen.contains key then .error (.duplicateField key)
      else
        match skipColon rest with
        | .error fault => .error fault
        | .ok rest =>
          (field.read record rest).map fun (record, rest) => ((key :: seen, record), rest)
    | none =>
      match skipColon rest with
      | .error fault => .error fault
      | .ok rest => (skipValue rest).map fun rest => ((seen, record), rest)

/-- Reads a member, and the members that follow it, up to the closing bracket. -/
def readMembers {α : Type} (fields : List (FieldReader α)) :
    (fuel : Nat) → List String → α → Reader α
  | 0, _, _, _ => .error .expectedValue
  | fuel + 1, seen, record, cs =>
    match readMember fields seen record cs with
    | .error fault => .error fault
    | .ok ((seen, record), rest) =>
      match skipBlanks rest with
      | '\x7d' :: rest => .ok (record, rest)
      | ',' :: rest =>
        match skipBlanks rest with
        | '"' :: rest => readMembers fields fuel seen record rest
        | '\x7d' :: _ => .error .trailingComma
        | _ :: _ => .error .keyMustBeString
        | [] => .error .endInValue
      | _ :: _ => .error .expectedObjectCommaOrEnd
      | [] => .error .endInObject

/-- Reads the members after an opening bracket. -/
def readObject {α : Type} (fields : List (FieldReader α)) (record : α) : Reader α := fun cs =>
  match skipBlanks cs with
  | '\x7d' :: rest => .ok (record, rest)
  | '"' :: rest => readMembers fields (rest.length + 1) [] record rest
  | _ :: _ => .error .keyMustBeString
  | [] => .error .endInObject

/-! ## Lists -/

/-- Reads the end of a list all of whose fields have been read. -/
def readListEnd {α : Type} (record : α) : Reader α := fun cs =>
  match skipBlanks cs with
  | ']' :: rest => .ok (record, rest)
  | ',' :: rest =>
    match skipBlanks rest with
    | ']' :: _ => .error .trailingComma
    | _ => .error .trailingCharacters
  | _ :: _ => .error .trailingCharacters
  | [] => .error .endInList

/-- Reads the fields that follow the first one in a list. -/
def readItems {α : Type} : List (FieldReader α) → α → Reader α
  | [], record, cs => readListEnd record cs
  | field :: fields, record, cs =>
    match skipBlanks cs with
    | ']' :: rest => .ok (record, rest)
    | ',' :: rest =>
      match skipBlanks rest with
      | ']' :: _ => .error .trailingComma
      | [] => .error .endInValue
      | rest =>
        match field.read record rest with
        | .error fault => .error fault
        | .ok (record, rest) => readItems fields record rest
    | _ :: _ => .error .expectedListCommaOrEnd
    | [] => .error .endInList

/-- Reads the fields after an opening bracket, in their order. -/
def readList {α : Type} (fields : List (FieldReader α)) (record : α) : Reader α := fun cs =>
  match fields with
  | [] => readListEnd record cs
  | field :: fields =>
    match skipBlanks cs with
    | ']' :: rest => .ok (record, rest)
    | [] => .error .endInList
    | cs =>
      match field.read record cs with
      | .error fault => .error fault
      | .ok (record, rest) => readItems fields record rest

/-! ## Values -/

/-- Reads a record from an object or a list; `name` says what is expected otherwise. -/
def readRecord {α : Type} (name : String) (fields : List (FieldReader α)) (record : α) :
    Reader α := fun cs =>
  match skipBlanks cs with
  | [] => .error .endInValue
  | '[' :: rest => readList fields record rest
  | '\x7b' :: rest => readObject fields record rest
  | cs => .error (wrongType name cs)

/-- Reads a number. -/
def readAnyNumber (name : String) : Reader Number := fun cs =>
  match skipBlanks cs with
  | [] => .error .endInValue
  | '-' :: rest => readNumber true rest
  | c :: rest =>
    if isDigit c then readNumber false (c :: rest) else .error (wrongType name (c :: rest))

/-- Reads a whole number of 64 bits with a sign. -/
def readInteger : Reader Int := fun cs =>
  match readAnyNumber "i64" cs with
  | .error fault => .error fault
  | .ok (.real x, _) => .error (.invalidType (.number x) "i64")
  | .ok (.whole n, rest) =>
    if n ≤ signedTop then .ok (n, rest) else .error (.invalidValue (.integer n) "i64")

/-- A number rounded to single precision: a whole number at once, any other by way of double
    precision. -/
def Number.toSingle : Number → Float32
  | whole n =>
    let magnitude := Binary32.ofSize n.natAbs
    if n < 0 then -magnitude else magnitude
  | real x => Binary32.narrow x

/-- Reads a number in single precision. -/
def readSingle : Reader Float32 := fun cs =>
  (readAnyNumber "f32" cs).map fun (n, rest) => (n.toSingle, rest)

/-- Reads a string; `name` says what is expected otherwise. -/
def readText (name : String) : Reader String := fun cs =>
  match skipBlanks cs with
  | [] => .error .endInValue
  | '"' :: rest => (readString rest).map fun (text, rest) => (String.ofList text, rest)
  | cs => .error (wrongType name cs)

/-- Reads a null. -/
def readNull : Reader Unit := fun cs =>
  match skipBlanks cs with
  | [] => .error .endInValue
  | 'n' :: rest => (skipWord ['u', 'l', 'l'] rest).map fun rest => ((), rest)
  | cs => .error (wrongType "unit" cs)

/-- The value of a name among the known ones. -/
def choose {α : Type} (values : List α) (name : α → String) (text : String) : Except Fault α :=
  match values.find? fun value => name value == text with
  | some value => .ok value
  | none => .error (.unknownVariant text (values.map name))

/-- Reads one of several named values: its name as a string, or an object with the name as its
    only key and null as value. -/
def readChoice {α : Type} (values : List α) (name : α → String) : Reader α := fun cs =>
  match skipBlanks cs with
  | [] => .error .endInValue
  | '"' :: rest =>
    match readString rest with
    | .error fault => .error fault
    | .ok (text, rest) => (choose values name (String.ofList text)).map fun value => (value, rest)
  | '\x7b' :: rest =>
    match skipBlanks rest with
    | [] => .error .endInObject
    | '\x7d' :: _ => .error .expectedValue
    | '"' :: rest =>
      match readString rest with
      | .error fault => .error fault
      | .ok (text, rest) =>
        match choose values name (String.ofList text) with
        | .error fault => .error fault
        | .ok value =>
          match skipColon rest with
          | .error fault => .error fault
          | .ok rest =>
            match readNull rest with
            | .error fault => .error fault
            | .ok ((), rest) =>
              match skipBlanks rest with
              | '\x7d' :: rest => .ok (value, rest)
              | _ :: _ => .error .expectedValue
              | [] => .error .endInObject
    | _ :: _ => .error .keyMustBeString
  | _ :: _ => .error .expectedValue

/-- Reads a whole document: a value, and nothing but blanks around it. -/
def readDocument {α : Type} (read : Reader α) (text : String) : Except Fault α :=
  match read text.toList with
  | .error fault => .error fault
  | .ok (value, rest) =>
    match skipBlanks rest with
    | [] => .ok value
    | _ :: _ => .error .trailingCharacters

end Relief.Json
