import Brokerage.Client.Basic
import Brokerage.Command.Invocation
import Brokerage.Json.Parser
import Brokerage.Http.Exchange

namespace Brokerage

/-- Why an invocation fails. -/
inductive CommandError where
  | clause (error : ClauseError)
  | search (error : SearchError)
  | client (error : ClientError)
  /-- Parameters are not JSON. -/
  | invalidParams
deriving DecidableEq

namespace CommandError

def message : CommandError → String
  | clause e => e.message
  | search e => e.message
  | client e => e.message
  | invalidParams => "invalid JSON"

/-- The error behind the error, in words. -/
def cause? : CommandError → Option String
  | client (.search e) => some e.message
  | _ => none

/-- The report of an error, with the error behind it. -/
def report (e : CommandError) : String :=
  "Error: " ++ e.message ++ match e.cause? with
    | some cause => "\n\nCaused by:\n    " ++ cause
    | none => ""

end CommandError

/-- What is left to do once all that needs no server is done: print a value, or
    connect and print the answer. -/
inductive Plan where
  | print (value : Json)
  | connect (settings : Settings) (operation : Client Http.Channel → Operation Json)

namespace Invocation

/-- What is left to do for a subcommand. Flags, parameters and settings are
    checked here, before any request is made; a search is compiled only once the
    client has connected. -/
def plan (i : Invocation) (env : Settings.Environment) (files : Settings.Files) : Except CommandError Plan :=
  let online (operation : Client Http.Channel → Operation Json) : Except CommandError Plan :=
    match Settings.resolve i.overrides env files with
    | .ok settings => .ok (.connect settings operation)
    | .error e => .error (.client e)
  match i.subcommand with
  | .expression text =>
    match Expression.parse text with
    | .ok e => .ok (.print e.toJson)
    | .error e => .error (.search e)
  | .compile flags =>
    match flags.toBuilder with
    | .error e => .error (.clause e)
    | .ok builder =>
      match builder.compile with
      | .ok document => .ok (.print document.toJson)
      | .error e => .error (.search e)
  | .search flags =>
    match flags.toBuilder with
    | .error e => .error (.clause e)
    | .ok builder => online fun _ => do
      let rows ← builder.execute .search
      return rows.raw
  | .call method params =>
    match Json.parse? params with
    | none => .error .invalidParams
    | some params => online fun _ => Dialogue.call method params
  | .symbols => online fun c => .result (.array (c.tables.symbols.map SymbolInfo.toJson))
  | .currencies => online fun c => .result (.array (c.tables.currencies.map CurrencyInfo.toJson))

end Invocation

namespace Plan

/-- The operation of a client over the channel that the settings describe, once
    its tables are loaded. -/
def connected (settings : Settings) (operation : Client Http.Channel → Operation Json) : Operation Json := do
  let client ← (Client.create settings (Http.Channel.ofSettings settings)).init
  operation client

/-- Carries out a plan against a server, the n-th request under the identifier
    `ids n`: the outcome, and the requests made. -/
def run (ids : Nat → String) (server : Http.Server) : Plan → Except CommandError Json × List Http.Request
  | print value => (.ok value, [])
  | connect settings operation =>
    let channel := Http.Channel.ofSettings settings
    let (outcome, calls) := (connected settings operation).run (channel.answers ids server) []
    (outcome.mapError .client, channel.requests ids calls)

end Plan

/-- The result of an invocation. -/
structure Report where
  code : Nat
  output : String
  message : String
deriving DecidableEq

namespace Report

/-- The report on an outcome: the value in indented form on a line of its own,
    or the error. -/
def ofOutcome : Except CommandError Json → Report
  | .ok value => ⟨0, value.indented ++ "\n", ""⟩
  | .error e => ⟨1, "", e.report⟩

/-- The report on arguments that ask for nothing. -/
def ofInterruption : Interruption → Report
  | .usage => ⟨2, "", "usage: mt7 [OPTIONS] <expr|compile|search|call|symbols|currencies>"⟩
  | .help => ⟨0, "usage: mt7 [OPTIONS] <expr|compile|search|call|symbols|currencies>\n", ""⟩
  | .version => ⟨0, "mt7 0.1.0\n", ""⟩

end Report

/-- Carries out what the arguments ask for against a server: the report, and the
    requests made. -/
def Invocation.run (arguments : List String) (env : Settings.Environment) (files : Settings.Files)
    (ids : Nat → String) (server : Http.Server) : Report × List Http.Request :=
  match Invocation.read arguments with
  | .error interruption => (.ofInterruption interruption, [])
  | .ok invocation =>
    match invocation.plan env files with
    | .error e => (.ofOutcome (.error e), [])
    | .ok plan =>
      let (outcome, requests) := plan.run ids server
      (.ofOutcome outcome, requests)

end Brokerage
