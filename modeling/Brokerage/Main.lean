import Std.Async.DNS
import Std.Async.TCP
import Brokerage.Command.Run
import Brokerage.Http.Message
import Brokerage.Remote.Identifier

namespace Brokerage.CommandLine

open Std.Async Std.Net

/-- All that is received until the other side closes the connection. -/
partial def receiveAll (socket : TCP.Socket.Client) (received : ByteArray) : Async ByteArray := do
  match ← socket.recv? 65536 with
  | some bytes => receiveAll socket (received ++ bytes)
  | none => return received

/-- Sends bytes to a port of a host and gives what comes back. -/
def transmit (host : String) (port : UInt16) (bytes : ByteArray) : Async ByteArray := do
  let addresses ← DNS.getAddrInfo host (toString port.toNat) none
  let some address := addresses[0]? | throw (IO.userError "host not found")
  let destination : SocketAddress := match address with
    | .v4 a => .v4 ⟨a, port⟩
    | .v6 a => .v6 ⟨a, port⟩
  let socket ← TCP.Socket.Client.mk
  socket.connect destination
  socket.send bytes
  receiveAll socket ByteArray.empty

/-- Carries one request to the server that its address names. -/
def carry (request : Http.Request) : IO (Except String Http.Reply) := do
  let some destination := Http.Destination.ofUrl? request.url | return .error "builder error"
  try
    let received ← (transmit destination.host destination.port (request.bytes destination)).block
    match Http.Reply.ofBytes? received.data.toList with
    | some reply => return .ok reply
    | none => return .error "error sending request"
  catch e => return .error (toString e)

/-- Runs a dialogue over the channel that the settings describe, each request
    under an identifier of its own. -/
def converse {α : Type} (settings : Settings) : Operation α → IO (Except ClientError α)
  | .done outcome => return outcome
  | .ask call next => do
    let id := Identifier.ofRandom (← IO.rand 0 ((1 <<< 122) - 1))
    let channel := Http.Channel.ofSettings settings
    match ← carry (channel.request id call) with
    | .ok reply => converse settings (next (Http.Channel.answer reply))
    | .error words => converse settings (next (.error (.transport (.exchange words))))

/-- The environment variables that settings come from. -/
def readEnvironment : IO Settings.Environment := do
  let values ← Settings.variableNames.mapM fun name => do return (name, ← IO.getEnv name)
  return fun name => (values.lookup name).join

/-- The settings file, as far as one is named. -/
def readFiles (path : Option String) : IO Settings.Files := do
  match path with
  | none => return fun _ => .error "No such file or directory (os error 2)"
  | some path =>
    try
      let text ← IO.FS.readFile path
      return fun _ => .ok text
    catch
      | .noFileOrDirectory .. => return fun _ => .error "No such file or directory (os error 2)"
      | e => return fun _ => .error (toString e)

/-- The report on what the arguments ask for. -/
def report (arguments : List String) : IO Report := do
  match Invocation.read arguments with
  | .error interruption => return .ofInterruption interruption
  | .ok invocation =>
    let env ← readEnvironment
    let files ← readFiles (Settings.path? invocation.overrides env)
    match invocation.plan env files with
    | .error e => return .ofOutcome (.error e)
    | .ok (.print value) => return .ofOutcome (.ok value)
    | .ok (.connect settings operation) =>
      let outcome ← converse settings (Plan.connected settings operation)
      return .ofOutcome (outcome.mapError .client)

end Brokerage.CommandLine

/-- The command line `mt7`: reads arguments, environment and settings file,
    carries calls over the network, prints the report and exits with its
    code. -/
def main (arguments : List String) : IO UInt32 := do
  let report ← Brokerage.CommandLine.report arguments
  IO.print report.output
  if report.message ≠ "" then
    IO.eprintln report.message
  return report.code.toUInt32
