import Brokerage.Command.Arguments
import Brokerage.Command.SearchFlags
import Brokerage.Settings

namespace Brokerage

/-- What an invocation of the command asks for. -/
inductive Subcommand where
  /-- The tree of an expression. -/
  | expression (text : String)
  /-- The document of a search. -/
  | compile (flags : SearchFlags)
  /-- The rows of a search. -/
  | search (flags : SearchFlags)
  /-- The result of a method. -/
  | call (method params : String)
  /-- The symbol table. -/
  | symbols
  /-- The currency table. -/
  | currencies
deriving DecidableEq

/-- A subcommand, and the settings given in front of it. -/
structure Invocation where
  overrides : Settings.Overrides
  subcommand : Subcommand
deriving DecidableEq

namespace Invocation

/-- The text writes an integer of up to 16 bits. A sign may stand in front, also
    a minus of zero. -/
def readPort? (s : String) : Option UInt16 :=
  match s.toList with
  | '-' :: ds => if (Text.readNatBelow? 1 ds).isSome ∧ ds.head? ≠ some '+' then some 0 else none
  | cs => Text.readUInt16? cs

/-- The text writes an unsigned 64-bit integer. -/
def readCount? (s : String) : Option UInt64 :=
  Text.readUInt64? s.toList

/-- What the command takes in front of a subcommand. -/
def rules : ArgumentRules where
  options := [
    { name := "host", arity := .single },
    { name := "port", arity := .single, accepts := fun v => (readPort? v).isSome },
    { name := "broker-id", arity := .single, accepts := fun v => (readCount? v).isSome },
    { name := "password", arity := .single },
    { name := "config", letter := some 'c', arity := .single, accepts := fun v => v ≠ "" },
    { name := "log-level", arity := .single }]
  subcommands := ["expr", "compile", "search", "call", "symbols", "currencies", "help"]
  versioned := true

/-- What the search subcommands take. -/
def searchRules : ArgumentRules where
  options := [
    { name := "from", arity := .single },
    { name := "select", arity := .many },
    { name := "computed", arity := .many },
    { name := "where", arity := .many, hyphenValues := true },
    { name := "group-by", arity := .single },
    { name := "order-by", arity := .single },
    { name := "desc", arity := .flag },
    { name := "limit", arity := .single, accepts := fun v => (readCount? v).isSome },
    { name := "offset", arity := .single, accepts := fun v => (readCount? v).isSome },
    { name := "float-mode", arity := .flag }]

/-- What a subcommand with so many positional arguments takes. -/
def plainRules (positionals : Nat) : ArgumentRules where
  options := []
  positionals := positionals

/-- The flags of a search. The table to search has to be named. -/
def readSearch (arguments : List String) : Except Interruption SearchFlags := do
  let a ← Arguments.read searchRules arguments
  let some context := a.value? "from" | .error .usage
  return {
    context
    columns := a.values "select"
    computed := a.values "computed"
    filters := a.values "where"
    groupBy := a.value? "group-by"
    orderBy := a.value? "order-by"
    descending := a.isSet "desc"
    limit := (a.value? "limit").bind readCount?
    offset := (a.value? "offset").bind readCount?
    floatMode := a.isSet "float-mode" }

/-- What a subcommand and its arguments ask for. -/
def readSubcommand (name : String) (arguments : List String) : Except Interruption Subcommand := do
  match name with
  | "expr" =>
    let a ← Arguments.read (plainRules 1) arguments
    let [text] := a.positionals | .error .usage
    return .expression text
  | "compile" => return .compile (← readSearch arguments)
  | "search" => return .search (← readSearch arguments)
  | "call" =>
    let a ← Arguments.read (plainRules 2) arguments
    match a.positionals with
    | [method] => return .call method "\x7b\x7d"
    | [method, params] => return .call method params
    | _ => .error .usage
  | "symbols" =>
    let _ ← Arguments.read (plainRules 0) arguments
    return .symbols
  | "currencies" =>
    let _ ← Arguments.read (plainRules 0) arguments
    return .currencies
  | "help" =>
    match arguments with
    | [] => .error .help
    | [topic] => if rules.subcommands.contains topic then .error .help else .error .usage
    | _ => .error .usage
  | _ => .error .usage

/-- What the arguments of the command ask for. -/
def read (arguments : List String) : Except Interruption Invocation := do
  let a ← Arguments.read rules arguments
  let some (name, rest) := a.subcommand | .error .usage
  let subcommand ← readSubcommand name rest
  return {
    overrides := {
      path := a.value? "config"
      host := a.value? "host"
      port := (a.value? "port").bind readPort?
      brokerId := (a.value? "broker-id").bind readCount?
      password := a.value? "password" }
    subcommand }

end Invocation

end Brokerage
