import Brokerage.Client.Error
import Brokerage.Json.RecordText
import Brokerage.Text.Numeral
import Brokerage.Text.WhiteSpace

namespace Brokerage

/-- The settings of a connection. An empty text or a zero stands for a setting
    left out. -/
structure Settings where
  host : String := ""
  port : UInt16 := 0
  brokerId : UInt64 := 0
  password : String := ""
  terminalUrl : Option String := none
  timeoutMs : UInt64 := 30000
deriving DecidableEq

namespace Settings

/-- The fields in the order in which they are written, with the other names they
    are read under. -/
def fields : List Record.Field :=
  [.named "host", .named "port", ⟨"broker_id", ["brokerId"]⟩, .named "password", ⟨"terminal_url", ["terminalURL"]⟩,
    .named "timeout_ms"]

/-- Settings with all that a connection needs. -/
def new (host : String) (port : UInt16) (brokerId : UInt64) (password : String) : Settings :=
  { host, port, brokerId, password }

def toJson (s : Settings) : Json :=
  .object (Record.member "host" (.string s.host) ++ Record.member "port" (.ofUInt64 s.port.toUInt64) ++
    Record.member "broker_id" (.ofUInt64 s.brokerId) ++ Record.member "password" (.string s.password) ++
    Record.memberIfSome Json.string "terminal_url" s.terminalUrl ++
    Record.member "timeout_ms" (.ofUInt64 s.timeoutMs))

/-- The settings that the fields of a record give. -/
def ofMembers? (members : List (String × Json)) : Option Settings := do
  return {
    host := ← Record.defaulted "" Json.asString? "host" members
    port := ← Record.defaulted 0 Json.asUInt16? "port" members
    brokerId := ← Record.defaulted 0 Json.asUInt64? "broker_id" members
    password := ← Record.defaulted "" Json.asString? "password" members
    terminalUrl := ← Record.optional Json.asString? "terminal_url" members
    timeoutMs := ← Record.defaulted 30000 Json.asUInt64? "timeout_ms" members }

def ofJson? (v : Json) : Option Settings :=
  (Record.read? fields v).bind ofMembers?

/-- The settings that a text writes. -/
def parse? (s : String) : Option Settings :=
  (Record.parse? fields s).bind ofMembers?

/-- The required settings that are left out, in order. -/
def missing (s : Settings) : List String :=
  (if s.host = "" then ["host"] else []) ++ (if s.port = 0 then ["port"] else []) ++
    (if s.brokerId = 0 then ["broker_id"] else []) ++ (if s.password = "" then ["password"] else [])

/-- Whether all that the connection needs is there. -/
def validate (s : Settings) : Except ClientError Unit :=
  match s.missing with
  | [] => .ok ()
  | names => .error (.settings (.missing names))

/-- The address that calls are sent to. -/
def endpoint (s : Settings) : String :=
  "http://" ++ s.host ++ ":" ++ toString s.port.toNat ++ "/"

/-- Settings given explicitly. -/
structure Overrides where
  path : Option String := none
  host : Option String := none
  port : Option UInt16 := none
  brokerId : Option UInt64 := none
  password : Option String := none
  terminalUrl : Option String := none
deriving DecidableEq

/-- The environment, as far as it is set. -/
abbrev Environment := String → Option String

/-- The number in an environment variable, white space around it passed over. -/
def numberFrom {α : Type} (read : List Char → Option α) (env : Environment) (name : String) :
    Except ClientError (Option α) :=
  match env name with
  | none => .ok none
  | some value =>
    match read (Text.trim value.toList) with
    | some n => .ok (some n)
    | none => .error (.settings (.notANumber name value))

/-- The files, by path: the text of each, or why it cannot be read. -/
abbrev Files := String → Except String String

/-- The settings in the file at `path`. -/
def load (files : Files) (path : String) : Except ClientError Settings :=
  match files path with
  | .error reason => .error (.settings (.unreadable path reason))
  | .ok text =>
    match parse? text with
    | some s => .ok s
    | none => .error (.settings (.invalid path))

/-- The environment variables that are looked at. -/
def variableNames : List String :=
  ["MT7_CONFIG", "MT7_HOST", "MT7_PORT", "MT7_BROKER_ID", "MT7_PASSWORD", "MT7_TERMINAL_URL"]

/-- The path of the settings file, if one is given. -/
def path? (overrides : Overrides) (env : Environment) : Option String :=
  overrides.path.or (env "MT7_CONFIG")

/-- The settings that the sources give together: a value given explicitly wins
    over the environment, which wins over the settings file. The file is read
    first; then each number is, unless it is given explicitly; what is still
    missing is found last. -/
def resolve (overrides : Overrides) (env : Environment) (files : Files) : Except ClientError Settings := do
  let base ←
    match path? overrides env with
    | some path => load files path
    | none => .ok {}
  let port ←
    match overrides.port with
    | some port => .ok (some port)
    | none => numberFrom Text.readUInt16? env "MT7_PORT"
  let brokerId ←
    match overrides.brokerId with
    | some id => .ok (some id)
    | none => numberFrom Text.readUInt64? env "MT7_BROKER_ID"
  let settings : Settings := {
    host := (overrides.host.or (env "MT7_HOST")).getD base.host
    port := port.getD base.port
    brokerId := brokerId.getD base.brokerId
    password := (overrides.password.or (env "MT7_PASSWORD")).getD base.password
    terminalUrl := (overrides.terminalUrl.or (env "MT7_TERMINAL_URL")).or base.terminalUrl
    timeoutMs := base.timeoutMs }
  settings.validate
  return settings

end Settings

end Brokerage
