import Mediatheque.Text.Digits
import Mediatheque.Text.Affix

/-!
# Reading arguments

Arguments are options, which begin with two dashes, flags of one letter behind a single
dash, and operands in a fixed order. An option takes its value from behind an equals
sign or from the next argument. Behind two dashes alone everything is an operand.

The value of an option is looked at when the next argument is taken up: an argument
that nobody knows is refused before a bad value in front of it.

* `Usage.read`: the arguments up to the name of a subcommand, or all;
* `Usage.finish`: the last value.
-/

namespace Mediatheque

/-- Why arguments are refused, or what is shown in place of a result. -/
inductive UsageError where
  | unknownArgument
  | unknownSubcommand
  | missingSubcommand
  | missingOperand
  /-- An option without a value, or with an empty one for a path. -/
  | missingValue
  /-- A value that is no number. -/
  | badValue
  /-- An option that is given twice. -/
  | repeated
  /-- A value for an option that takes none. -/
  | unexpectedValue
  | help
  /-- No arguments at all. -/
  | nothing
deriving DecidableEq, Inhabited

/-- What an option takes. -/
inductive OptionKind where
  | flag
  | path
  | number
  /-- Shows how the program is used. -/
  | help
deriving DecidableEq, Inhabited

/-- An option, by its long name and its letter. -/
structure OptionSpec where
  name : String
  kind : OptionKind
  letter : Option Char := none
deriving DecidableEq, Inhabited

/-- What a command takes. -/
structure Usage where
  options : List OptionSpec
  operands : Nat
  subcommands : List String := []
deriving DecidableEq, Inhabited

/-- A value that was given. -/
inductive ArgumentValue where
  | flag
  | path (path : String)
  | number (n : UInt64)
deriving DecidableEq, Inhabited

/-- What has been taken up so far. -/
structure Arguments where
  values : List (String × ArgumentValue) := []
  operands : List String := []
  /-- The last option, and its value once that has come. -/
  pending : Option (OptionSpec × Option String) := none
  /-- Whether only operands are to come. -/
  trailing : Bool := false
deriving Inhabited

namespace Arguments

def has (a : Arguments) (name : String) : Bool := (a.values.lookup name).isSome

def path? (a : Arguments) (name : String) : Option String :=
  match a.values.lookup name with
  | some (.path path) => some path
  | _ => none

def number? (a : Arguments) (name : String) : Option UInt64 :=
  match a.values.lookup name with
  | some (.number n) => some n
  | _ => none

end Arguments

namespace Usage

/-! ## Values -/

/-- The number below 2^64 that a text writes; a plus sign may stand in front. -/
def number? (text : List Char) : Option UInt64 :=
  let digits := match text with
    | '+' :: digits => digits
    | digits => digits
  if digits.isEmpty then none
  else do
    let n ← (digitValues? decimalDigit? digits).map (numberOf 10)
    if n < UInt64.size then some (.ofNat n) else none

/-- The value of an option that a text gives. -/
def value (kind : OptionKind) (text : String) : Except UsageError ArgumentValue :=
  match kind with
  | .path => if text.isEmpty then .error .missingValue else .ok (.path text)
  | .number =>
    match number? text.toList with
    | some n => .ok (.number n)
    | none => .error .badValue
  | _ => .ok .flag

/-- Takes up an option, which may be given once. -/
def add (o : OptionSpec) (text : String) (a : Arguments) : Except UsageError Arguments :=
  if a.has o.name then .error .repeated
  else do
    let v ← value o.kind text
    .ok { a with values := (o.name, v) :: a.values }

/-- Takes up the pending option. -/
def finish (a : Arguments) : Except UsageError Arguments :=
  match a.pending with
  | none => .ok a
  | some (_, none) => .error .missingValue
  | some (o, some text) => add o text { a with pending := none }

/-! ## Arguments -/

/-- Takes up an option with the value behind its equals sign. -/
def readOption (o : OptionSpec) (attached : Option String) (a : Arguments) :
    Except UsageError Arguments :=
  match o.kind, attached with
  | .flag, some _ | .help, some _ => .error .unexpectedValue
  | .flag, none => finish a >>= add o ""
  | .help, none => do
    let _ ← finish a
    .error .help
  | _, some text => finish a >>= add o text
  | _, none => do
    let a ← finish a
    .ok { a with pending := some (o, none) }

/-- Takes up an argument behind two dashes. -/
def readLong (u : Usage) (text : List Char) (a : Arguments) : Except UsageError Arguments :=
  let name := text.takeWhile (· ≠ '=')
  let attached := match text.drop name.length with
    | _ :: value => some (String.ofList value)
    | [] => none
  match u.options.find? (·.name = String.ofList name) with
  | some o => readOption o attached a
  | none => .error .unknownArgument

/-- Takes up letters behind a dash. -/
def readLetters (u : Usage) : List Char → Arguments → Except UsageError Arguments
  | [], a => .ok a
  | c :: rest, a =>
    match u.options.find? (·.letter = some c) with
    | some o => readOption o none a >>= readLetters u rest
    | none => .error .unknownArgument

/-- Takes up an operand. -/
def readOperand (u : Usage) (text : String) (a : Arguments) : Except UsageError Arguments :=
  if a.operands.length < u.operands then do
    let a ← finish a
    .ok { a with operands := a.operands ++ [text] }
  else if u.subcommands.isEmpty || (a.trailing && text ∈ u.subcommands) then
    .error .unknownArgument
  else .error .unknownSubcommand

/-- Whether the last option still waits for its value. -/
def awaitsValue (a : Arguments) : Bool := a.pending.any (·.2.isNone)

/-- Takes up an argument that is no subcommand. -/
def readArgument (u : Usage) (text : String) (a : Arguments) : Except UsageError Arguments :=
  if a.trailing then u.readOperand text a
  else
    match text.toList with
    | ['-', '-'] => .ok { a with trailing := true }
    | '-' :: '-' :: rest => u.readLong rest a
    | '-' :: c :: rest => u.readLetters (c :: rest) a
    | _ =>
      match a.pending with
      | some (o, none) => .ok { a with pending := some (o, some text) }
      | _ => u.readOperand text a

/-- Takes up arguments until the name of a subcommand, which is given back with those
behind it. -/
def read (u : Usage) : List String → Arguments →
    Except UsageError (Arguments × Option (String × List String))
  | [], a => .ok (a, none)
  | text :: rest, a =>
    if !a.trailing && !awaitsValue a && text ∈ u.subcommands then .ok (a, some (text, rest))
    else do
      let a ← u.readArgument text a
      read u rest a

end Usage

end Mediatheque
