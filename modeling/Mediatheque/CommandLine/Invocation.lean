import Mediatheque.CommandLine.Usage

/-!
# Invocations

What the program is asked on its command line: a request for one of the subcommands,
and the options for all of them, which may stand in front of it or behind. Where an
option stands in both places the one behind counts.

* `Invocation.read`: the invocation that the arguments give.
-/

namespace Mediatheque

/-- What is asked of a database. -/
inductive Request where
  | browse (id : String) (start : UInt64) (count : Option UInt64)
  | object (id : String)
  | rescan
  | set (context name value : String)
deriving DecidableEq, Inhabited

/-- A request, and how to carry it out. -/
structure Invocation where
  baseDir : Option String := none
  create : Bool := false
  /-- A settings file that counts before the user's. -/
  config : Option String := none
  /-- The number of seconds to wait for an answer. -/
  timeout : UInt64 := 10
  verbose : Bool := false
  request : Request
deriving DecidableEq, Inhabited

namespace Invocation

/-- The options for all subcommands. -/
def options : List OptionSpec := [
  ⟨"base-dir", .path, none⟩, ⟨"create", .flag, none⟩, ⟨"config", .path, none⟩,
  ⟨"timeout", .number, none⟩, ⟨"verbose", .flag, some 'v'⟩, ⟨"help", .help, some 'h'⟩]

/-- What stands in front of the subcommand. -/
def usage : Usage where
  options := options
  operands := 0
  subcommands := ["browse", "object", "rescan", "set", "help"]

/-- What stands behind the name of a subcommand. -/
def subcommandUsage (name : String) : Usage :=
  match name with
  | "browse" => ⟨options ++ [⟨"start", .number, none⟩, ⟨"count", .number, none⟩], 1, []⟩
  | "object" => ⟨options, 1, []⟩
  | "set" => ⟨options, 3, []⟩
  | _ => ⟨options, 0, []⟩

/-- The request that a subcommand with its arguments makes. -/
def request? (name : String) (a : Arguments) : Option Request :=
  match name, a.operands with
  | "browse", [id] => some (.browse id ((a.number? "start").getD 0) (a.number? "count"))
  | "object", [id] => some (.object id)
  | "rescan", [] => some .rescan
  | "set", [context, key, value] => some (.set context key value)
  | _, _ => none

/-- The answer to a request for help on a subcommand. -/
def helpOn (names : List String) : UsageError :=
  match names with
  | [] => .help
  | [name] => if name ∈ usage.subcommands then .help else .unknownSubcommand
  | _ => .unknownSubcommand

/-- The invocation from the arguments in front of the subcommand and those behind it. -/
def ofArguments (outer inner : Arguments) (request : Request) : Invocation where
  baseDir := inner.path? "base-dir" <|> outer.path? "base-dir"
  create := inner.has "create" || outer.has "create"
  config := inner.path? "config" <|> outer.path? "config"
  timeout := (inner.number? "timeout" <|> outer.number? "timeout").getD 10
  verbose := inner.has "verbose" || outer.has "verbose"
  request := request

/-- The invocation that the arguments of the program give. What stands behind the
subcommand is looked at first. -/
def read (arguments : List String) : Except UsageError Invocation := do
  match ← usage.read arguments {} with
  | (outer, none) => do
    let outer ← Usage.finish outer
    .error (if outer.values.isEmpty then .nothing else .missingSubcommand)
  | (_, some ("help", names)) => .error (helpOn names)
  | (outer, some (name, rest)) => do
    let (inner, _) ← (subcommandUsage name).read rest {}
    let inner ← Usage.finish inner
    match request? name inner with
    | none => .error .missingOperand
    | some request => do
      let outer ← Usage.finish outer
      .ok (ofArguments outer inner request)

end Invocation

end Mediatheque
