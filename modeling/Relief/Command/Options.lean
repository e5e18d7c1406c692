import Relief.Decimal.Reading

set_option autoImplicit false

/-! # Options: reading a command line

A command takes long options with one value each, written as `--name value` or `--name=value`, and
nothing else. Arguments are read from left to right and every value is checked at once, so the
first argument that is wrong decides, unless help was asked for before it. -/

namespace Relief.Command

/-- What the value of an option has to be. -/
inductive ValueKind where
  /-- A path, which is not empty. -/
  | path
  /-- A whole number of 64 bits. -/
  | size
  /-- A number in single precision, which may begin with a minus sign. -/
  | number
  /-- One of several names. -/
  | name (known : List String)

/-- An option of a command. -/
structure OptionSpec where
  name : String
  kind : ValueKind

/-- What is wrong with a command line. -/
inductive UsageError where
  | unknownOption (argument : String)
  | unexpectedArgument (argument : String)
  | missingValue (name : String)
  | invalidValue (name value : String)
  | repeatedOption (name : String)
deriving DecidableEq, Repr

/-- The message of a wrong command line. -/
def UsageError.message : UsageError → String
  | unknownOption argument => "unknown option " ++ argument
  | unexpectedArgument argument => "unexpected argument " ++ argument
  | missingValue name => "option --" ++ name ++ " needs a value"
  | invalidValue name value => "option --" ++ name ++ " cannot be " ++ value
  | repeatedOption name => "option --" ++ name ++ " is given twice"

/-- The options that were given, each with the text of its value. -/
abbrev Given := List (String × String)

/-- A command line that can be followed. -/
inductive Request where
  | help
  | run (given : Given)

/-! ## Values -/

/-- Whether a text is acceptable as a value. -/
def ValueKind.accepts (kind : ValueKind) (value : String) : Bool :=
  match kind with
  | path => !value.isEmpty
  | size => (Decimal.size? value).isSome
  | number => (Decimal.single? value).isSome
  | name known => known.contains value

/-- Whether the characters after a minus sign look like a number: digits, one point that does not
    come first, and one exponent with or without a sign. -/
def looksNumeric (cs : List Char) : Bool :=
  let mantissa := cs.takeWhile (· != 'e')
  let exponent := cs.dropWhile (· != 'e')
  let mantissaOk :=
    match mantissa with
    | [] => exponent.isEmpty
    | c :: rest =>
      Decimal.isDigit c && rest.all (fun c => Decimal.isDigit c || c == '.') &&
        rest.count '.' ≤ 1
  let exponentOk :=
    match exponent with
    | [] => true
    | _ :: rest => !rest.isEmpty && (Decimal.takeSign rest).2.all Decimal.isDigit
  mantissaOk && exponentOk

/-- Whether the argument after an option can be its value. One that begins with a minus sign is an
    option itself, a lone minus sign and negative numbers apart. -/
def ValueKind.follows (kind : ValueKind) (argument : String) : Bool :=
  match argument.toList with
  | '-' :: [] => true
  | '-' :: rest =>
    match kind with
    | number => looksNumeric rest
    | _ => false
  | _ => true

/-! ## Arguments -/

/-- Takes note of an option and its value, both of which must be in order. -/
def note (spec : OptionSpec) (value : String) (given : Given) : Except UsageError Given :=
  if (given.lookup spec.name).isSome then .error (.repeatedOption spec.name)
  else if spec.kind.accepts value then .ok ((spec.name, value) :: given)
  else .error (.invalidValue spec.name value)

/-- The name and the value of a long option, cut at its first equals sign. -/
def splitLong (cs : List Char) : String × Option String :=
  let name := String.ofList (cs.takeWhile (· != '='))
  match cs.dropWhile (· != '=') with
  | [] => (name, none)
  | _ :: value => (name, some (String.ofList value))

/-- Reads the arguments from left to right. -/
def parse (specs : List OptionSpec) (given : Given) : List String → Except UsageError Request
  | [] => .ok (.run given)
  | argument :: rest =>
    match argument.toList with
    | ['-', '-'] =>
      match rest with
      | [] => .ok (.run given)
      | positional :: _ => .error (.unexpectedArgument positional)
    | '-' :: '-' :: long =>
      let (name, attached) := splitLong long
      if name == "help" then
        match attached with
        | none => .ok .help
        | some value => .error (.invalidValue name value)
      else
        match specs.find? fun spec => spec.name == name with
        | none => .error (.unknownOption argument)
        | some spec =>
          match attached with
          | some value =>
            match note spec value given with
            | .ok given => parse specs given rest
            | .error err => .error err
          | none =>
            match rest with
            | [] => .error (.missingValue name)
            | value :: rest =>
              if spec.kind.follows value then
                match note spec value given with
                | .ok given => parse specs given rest
                | .error err => .error err
              else .error (.missingValue name)
    | '-' :: 'h' :: _ => .ok .help
    | '-' :: _ :: _ => .error (.unknownOption argument)
    | _ => .error (.unexpectedArgument argument)

/-! ## Usage -/

/-- How the value of an option is written in the usage. -/
def ValueKind.hint : ValueKind → String
  | path => "PATH"
  | size => "SIZE"
  | number => "NUMBER"
  | name known => "|".intercalate known

/-- The usage of a command: its name, then a line for each option. -/
def usage (command : String) (specs : List OptionSpec) : String :=
  let line (spec : OptionSpec) : String := "  --" ++ spec.name ++ " " ++ spec.kind.hint ++ "\n"
  "Usage: " ++ command ++ " [OPTIONS]\n\nOptions:\n" ++ String.join (specs.map line)

/-! ## Looking options up -/

/-- The size given for an option. -/
def Given.size? (given : Given) (name : String) : Option Nat :=
  (given.lookup name).bind Decimal.size?

/-- The number given for an option. -/
def Given.number? (given : Given) (name : String) : Option Float32 :=
  (given.lookup name).bind Decimal.single?

/-- The text given for an option. -/
def Given.text? (given : Given) (name : String) : Option String := given.lookup name

end Relief.Command
