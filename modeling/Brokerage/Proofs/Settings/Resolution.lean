import Brokerage.Proofs.Settings.Layers

namespace Brokerage.Settings

/-- What is given explicitly. -/
def Overrides.layer (o : Overrides) : Layer where
  host := o.host
  port := o.port
  brokerId := o.brokerId
  password := o.password
  terminalUrl := o.terminalUrl

/-- The number that a variable holds, if it holds one. -/
def numberIn? {α : Type} (read : List Char → Option α) (env : Environment) (name : String) : Option α :=
  (env name).bind fun value => read (Text.trim value.toList)

/-- What the environment says. -/
def environmentLayer (env : Environment) : Layer where
  host := env "MT7_HOST"
  port := numberIn? Text.readUInt16? env "MT7_PORT"
  brokerId := numberIn? Text.readUInt64? env "MT7_BROKER_ID"
  password := env "MT7_PASSWORD"
  terminalUrl := env "MT7_TERMINAL_URL"

/-- The settings of all layers together. -/
def layered (overrides : Overrides) (env : Environment) (file : Layer) : Settings :=
  (overrides.layer.above ((environmentLayer env).above file)).settings

/-- The first step: the settings in the file. -/
def fromFile (overrides : Overrides) (env : Environment) (files : Files) : Except ClientError Settings :=
  (path? overrides env).elim (.ok {}) (load files)

/-- The steps for the two numbers: one given explicitly is taken, and else the
    variable is looked at. -/
def number {α : Type} (read : List Char → Option α) (explicit : Option α) (env : Environment) (name : String) :
    Except ClientError (Option α) :=
  explicit.elim (numberFrom read env name) fun n => .ok (some n)

/-- What a base of settings becomes under the values given explicitly and those
    in the environment. -/
def combined (overrides : Overrides) (env : Environment) (base : Settings) (port : Option UInt16)
    (brokerId : Option UInt64) : Settings where
  host := (overrides.host.or (env "MT7_HOST")).getD base.host
  port := port.getD base.port
  brokerId := brokerId.getD base.brokerId
  password := (overrides.password.or (env "MT7_PASSWORD")).getD base.password
  terminalUrl := (overrides.terminalUrl.or (env "MT7_TERMINAL_URL")).or base.terminalUrl
  timeoutMs := base.timeoutMs

/-- What comes of the settings file: nothing said if none is named, an error if
    it cannot be read or does not hold settings, and else what it says. -/
inductive FileGives (overrides : Overrides) (env : Environment) (files : Files) : Except ClientError Layer → Prop where
  | notNamed (hpath : path? overrides env = none) : FileGives overrides env files (.ok {})
  | unreadable {path reason : String} (hpath : path? overrides env = some path) (hfile : files path = .error reason) :
    FileGives overrides env files (.error (.settings (.unreadable path reason)))
  | invalid {path text : String} (hpath : path? overrides env = some path) (hfile : files path = .ok text)
      (htext : Layer.ofText? text = none) :
    FileGives overrides env files (.error (.settings (.invalid path)))
  | read {path text : String} {layer : Layer} (hpath : path? overrides env = some path) (hfile : files path = .ok text)
      (htext : Layer.ofText? text = some layer) :
    FileGives overrides env files (.ok layer)

/-- The variable is looked at, no number being given explicitly, and holds a
    value that is none. -/
def Malformed {α : Type} (read : List Char → Option α) (explicit : Option α) (env : Environment)
    (name value : String) : Prop :=
  explicit = none ∧ env name = some value ∧ read (Text.trim value.toList) = none

/-- The variable for the port is looked at and holds no port. -/
def MalformedPort (overrides : Overrides) (env : Environment) : String → Prop :=
  Malformed Text.readUInt16? overrides.port env "MT7_PORT"

/-- The variable for the broker is looked at and holds no number of one. -/
def MalformedBrokerId (overrides : Overrides) (env : Environment) : String → Prop :=
  Malformed Text.readUInt64? overrides.brokerId env "MT7_BROKER_ID"

section

variable {overrides : Overrides} {env : Environment} {files : Files}

private theorem exists_fileGives (overrides : Overrides) (env : Environment) (files : Files) :
    ∃ file, FileGives overrides env files file := by
  cases hpath : path? overrides env with
  | none => exact ⟨_, .notNamed hpath⟩
  | some path =>
    cases hfile : files path with
    | error reason => exact ⟨_, .unreadable hpath hfile⟩
    | ok text =>
      cases htext : Layer.ofText? text with
      | none => exact ⟨_, .invalid hpath hfile htext⟩
      | some layer => exact ⟨_, .read hpath hfile htext⟩

/-- The steps of resolving, one after the other: the file, the port, the broker,
    and what is missing. The order is that of the errors, and later steps see
    nothing of the environment but the variables they read. -/
private theorem resolve_eq_steps (overrides : Overrides) (env : Environment) (files : Files) :
    resolve overrides env files = (do
      let base ← fromFile overrides env files
      let port ← number Text.readUInt16? overrides.port env "MT7_PORT"
      let brokerId ← number Text.readUInt64? overrides.brokerId env "MT7_BROKER_ID"
      let settings := combined overrides env base port brokerId
      settings.validate.map fun _ => settings) := by
  unfold resolve fromFile number
  cases path? overrides env <;> cases overrides.port <;> cases overrides.brokerId <;> rfl

private theorem FileGives.fromFile_eq {file : Except ClientError Layer} (h : FileGives overrides env files file) :
    fromFile overrides env files = file.map Layer.settings := by
  unfold fromFile
  cases h with
  | notNamed hpath => rw [hpath]; rfl
  | unreadable hpath hfile => rw [hpath, Option.elim_some, load, hfile]; rfl
  | invalid hpath hfile htext => simp only [hpath, Option.elim_some, load, hfile, parse?_eq, htext]; rfl
  | read hpath hfile htext => simp only [hpath, Option.elim_some, load, hfile, parse?_eq, htext]; rfl

variable {α : Type} {read : List Char → Option α} {explicit : Option α} {name : String}

private theorem Malformed.number_eq {value : String} (h : Malformed read explicit env name value) :
    number read explicit env name = .error (.settings (.notANumber name value)) := by
  obtain ⟨rfl, hvalue, hread⟩ := h
  simp only [number, Option.elim_none, numberFrom, hvalue, hread]

/-- A number that is not malformed is the one given explicitly, or else the one
    in the variable, if it is set. By `h` the variable is not looked at, not
    set, or holds a number. -/
private theorem number_of_not_malformed (h : ∀ value, ¬Malformed read explicit env name value) :
    number read explicit env name = .ok (explicit.or (numberIn? read env name)) := by
  cases explicit with
  | some n => rfl
  | none =>
    rw [number, Option.elim_none, Option.none_or, numberIn?, numberFrom]
    cases hvalue : env name with
    | none => rfl
    | some value =>
      cases hread : read (Text.trim value.toList) with
      | none => exact absurd ⟨rfl, hvalue, hread⟩ (h value)
      | some n => simp [hread]

end

section

variable {overrides : Overrides} {env : Environment} {files : Files}

private theorem resolve_of_fileGives_error {e : ClientError} (h : FileGives overrides env files (.error e)) :
    resolve overrides env files = .error e := by
  rw [resolve_eq_steps, h.fromFile_eq]
  rfl

private theorem resolve_of_malformedPort {file : Layer} {value : String} (h : FileGives overrides env files (.ok file))
    (hport : MalformedPort overrides env value) :
    resolve overrides env files = .error (.settings (.notANumber "MT7_PORT" value)) := by
  rw [resolve_eq_steps, h.fromFile_eq, hport.number_eq]
  rfl

private theorem resolve_of_malformedBrokerId {file : Layer} {value : String} (h : FileGives overrides env files (.ok file))
    (hport : ∀ value, ¬MalformedPort overrides env value) (hid : MalformedBrokerId overrides env value) :
    resolve overrides env files = .error (.settings (.notANumber "MT7_BROKER_ID" value)) := by
  rw [resolve_eq_steps, h.fromFile_eq, number_of_not_malformed hport, hid.number_eq]
  rfl

private theorem combined_eq_layered (overrides : Overrides) (env : Environment) (file : Layer) :
    combined overrides env file.settings (overrides.port.or (numberIn? Text.readUInt16? env "MT7_PORT"))
      (overrides.brokerId.or (numberIn? Text.readUInt64? env "MT7_BROKER_ID")) = layered overrides env file := by
  simp [combined, layered, Layer.above, Layer.settings, Overrides.layer, environmentLayer, Option.or_assoc]

/-- With a readable file and well-formed numbers only what is missing decides.
    The three premises are the three ways in which resolving can fail before the
    settings are put together. -/
private theorem resolve_of_wellFormed {file : Layer} (h : FileGives overrides env files (.ok file))
    (hport : ∀ value, ¬MalformedPort overrides env value) (hid : ∀ value, ¬MalformedBrokerId overrides env value) :
    resolve overrides env files = (layered overrides env file).validate.map fun _ => layered overrides env file := by
  rw [resolve_eq_steps, h.fromFile_eq, number_of_not_malformed hport, number_of_not_malformed hid,
    ← combined_eq_layered]
  rfl

end

/-- The required settings, in the order in which missing ones are named. -/
def requiredNames : List String := ["host", "port", "broker_id", "password"]

/-- The names are those of the required settings that are left out, in order and
    none twice. -/
def NamesMissing (s : Settings) (names : List String) : Prop :=
  names.Sublist requiredNames ∧ ("host" ∈ names ↔ s.host = "") ∧ ("port" ∈ names ↔ s.port = 0) ∧
    ("broker_id" ∈ names ↔ s.brokerId = 0) ∧ ("password" ∈ names ↔ s.password = "")

/-- Nothing that a connection needs is left out. -/
def Complete (s : Settings) : Prop :=
  s.host ≠ "" ∧ s.port ≠ 0 ∧ s.brokerId ≠ 0 ∧ s.password ≠ ""

instance (s : Settings) : Decidable s.Complete :=
  inferInstanceAs (Decidable (s.host ≠ "" ∧ s.port ≠ 0 ∧ s.brokerId ≠ 0 ∧ s.password ≠ ""))

private theorem singleton_if_sublist {α : Type} (p : Prop) [Decidable p] (a : α) : (if p then [a] else []).Sublist [a] := by
  split
  · exact .refl _
  · exact List.nil_sublist _

private theorem namesMissing_missing (s : Settings) : NamesMissing s s.missing := by
  refine ⟨?_, ?_⟩
  · exact (((singleton_if_sublist _ "host").append (singleton_if_sublist _ "port")).append
      (singleton_if_sublist _ "broker_id")).append (singleton_if_sublist _ "password")
  · simp [missing]

private theorem missing_eq_nil_iff (s : Settings) : s.missing = [] ↔ s.Complete := by
  simp [missing, Complete]

private theorem validate_eq_ok_iff (s : Settings) : s.validate = .ok () ↔ s.Complete := by
  rw [← missing_eq_nil_iff, validate]
  cases s.missing <;> simp

private theorem validate_of_not_complete {s : Settings} (h : ¬s.Complete) :
    ∃ names, s.validate = .error (.settings (.missing names)) ∧ NamesMissing s names := by
  refine ⟨s.missing, ?_, namesMissing_missing s⟩
  rw [← missing_eq_nil_iff] at h
  rw [validate]
  cases hnames : s.missing with
  | nil => contradiction
  | cons name names => rfl

/-- The variables that are looked at: those of what is not given explicitly. -/
def Overrides.consulted (o : Overrides) : List String :=
  (if o.path = none then ["MT7_CONFIG"] else []) ++ (if o.host = none then ["MT7_HOST"] else []) ++
    (if o.port = none then ["MT7_PORT"] else []) ++ (if o.brokerId = none then ["MT7_BROKER_ID"] else []) ++
    (if o.password = none then ["MT7_PASSWORD"] else []) ++
    (if o.terminalUrl = none then ["MT7_TERMINAL_URL"] else [])

section

variable {overrides : Overrides} {env other : Environment} {files otherFiles : Files}

private theorem number_congr {α : Type} {read : List Char → Option α} {explicit : Option α} {name : String}
    (h : explicit = none → env name = other name) :
    number read explicit env name = number read explicit other name := by
  cases explicit with
  | some n => rfl
  | none => simp only [number, Option.elim_none, numberFrom, h rfl]

/-- Variables that are not looked at have no influence. The ones looked at
    depend on what is given explicitly only, so that one list serves both
    environments. -/
private theorem resolve_congr (h : ∀ name ∈ overrides.consulted, env name = other name) :
    resolve overrides env files = resolve overrides other files := by
  have hpath : overrides.path = none → env "MT7_CONFIG" = other "MT7_CONFIG" :=
    fun hnone => h _ (by simp [Overrides.consulted, hnone])
  have hhost : overrides.host = none → env "MT7_HOST" = other "MT7_HOST" :=
    fun hnone => h _ (by simp [Overrides.consulted, hnone])
  have hport : overrides.port = none → env "MT7_PORT" = other "MT7_PORT" :=
    fun hnone => h _ (by simp [Overrides.consulted, hnone])
  have hid : overrides.brokerId = none → env "MT7_BROKER_ID" = other "MT7_BROKER_ID" :=
    fun hnone => h _ (by simp [Overrides.consulted, hnone])
  have hpassword : overrides.password = none → env "MT7_PASSWORD" = other "MT7_PASSWORD" :=
    fun hnone => h _ (by simp [Overrides.consulted, hnone])
  have hurl : overrides.terminalUrl = none → env "MT7_TERMINAL_URL" = other "MT7_TERMINAL_URL" :=
    fun hnone => h _ (by simp [Overrides.consulted, hnone])
  have hfile : fromFile overrides env files = fromFile overrides other files := by
    rw [fromFile, fromFile, path?, path?, Layer.or_eq_or_of_eq_none hpath]
  have hcombined : combined overrides env = combined overrides other := by
    funext base port brokerId
    simp only [combined, Layer.or_eq_or_of_eq_none hhost, Layer.or_eq_or_of_eq_none hpassword,
      Layer.or_eq_or_of_eq_none hurl]
  rw [resolve_eq_steps, resolve_eq_steps, hfile, number_congr hport, number_congr hid, hcombined]

/-- What a file says where something above it is given has no influence. Both
    files have to be readable as settings, since otherwise one of them would be
    the error. -/
private theorem resolve_congr_file {file otherFile : Layer} (h : FileGives overrides env files (.ok file))
    (hother : FileGives overrides env otherFiles (.ok otherFile))
    (hagree : (overrides.layer.above (environmentLayer env)).AgreeBelow file otherFile) :
    resolve overrides env files = resolve overrides env otherFiles := by
  have hlayered : layered overrides env file = layered overrides env otherFile := by
    rw [layered, layered, ← Layer.above_assoc, ← Layer.above_assoc, hagree.above_eq]
  by_cases hport : ∃ value, MalformedPort overrides env value
  · obtain ⟨value, hport⟩ := hport
    rw [resolve_of_malformedPort h hport, resolve_of_malformedPort hother hport]
  · rw [not_exists] at hport
    by_cases hid : ∃ value, MalformedBrokerId overrides env value
    · obtain ⟨value, hid⟩ := hid
      rw [resolve_of_malformedBrokerId h hport hid, resolve_of_malformedBrokerId hother hport hid]
    · rw [not_exists] at hid
      rw [resolve_of_wellFormed h hport hid, resolve_of_wellFormed hother hport hid, hlayered]

/-- Resolving succeeds exactly if no number is malformed and nothing is left
    out, and it then returns what the layers give. A file that gives a layer is
    the premise. -/
private theorem resolve_eq_ok_iff {file : Layer} {s : Settings} (h : FileGives overrides env files (.ok file)) :
    resolve overrides env files = .ok s ↔
      (∀ value, ¬MalformedPort overrides env value) ∧ (∀ value, ¬MalformedBrokerId overrides env value) ∧
        s = layered overrides env file ∧ s.Complete := by
  constructor
  · intro hok
    have hport : ∀ value, ¬MalformedPort overrides env value := by
      intro value hport
      rw [resolve_of_malformedPort h hport] at hok
      cases hok
    have hid : ∀ value, ¬MalformedBrokerId overrides env value := by
      intro value hid
      rw [resolve_of_malformedBrokerId h hport hid] at hok
      cases hok
    rw [resolve_of_wellFormed h hport hid, map_eq_ok_iff] at hok
    obtain ⟨_, hvalid, rfl⟩ := hok
    exact ⟨hport, hid, rfl, (validate_eq_ok_iff _).mp hvalid⟩
  · rintro ⟨hport, hid, rfl, hcomplete⟩
    rw [resolve_of_wellFormed h hport hid, (validate_eq_ok_iff _).mpr hcomplete]
    rfl

end

/-- Settings are layered: a file that cannot be had is the error, whatever else
    there is; otherwise every setting is what the uppermost layer says that
    gives it, and the first of a malformed port, a malformed broker and the
    missing settings is the error. Neither a variable whose setting is given
    explicitly nor what the file says below another layer changes anything. -/
theorem resolve_layered (overrides : Overrides) (env : Environment) (files : Files) :
    (∃ file, FileGives overrides env files file) ∧
    (∀ e, FileGives overrides env files (.error e) → resolve overrides env files = .error e) ∧
    (∀ file, FileGives overrides env files (.ok file) →
      (∀ value, MalformedPort overrides env value →
        resolve overrides env files = .error (.settings (.notANumber "MT7_PORT" value))) ∧
      ((∀ value, ¬MalformedPort overrides env value) → ∀ value, MalformedBrokerId overrides env value →
        resolve overrides env files = .error (.settings (.notANumber "MT7_BROKER_ID" value))) ∧
      (∀ s, resolve overrides env files = .ok s ↔
        (∀ value, ¬MalformedPort overrides env value) ∧ (∀ value, ¬MalformedBrokerId overrides env value) ∧
          s = layered overrides env file ∧ s.Complete) ∧
      ((∀ value, ¬MalformedPort overrides env value) → (∀ value, ¬MalformedBrokerId overrides env value) →
        ¬(layered overrides env file).Complete →
        ∃ names, resolve overrides env files = .error (.settings (.missing names)) ∧
          NamesMissing (layered overrides env file) names) ∧
      ∀ otherFiles otherFile, FileGives overrides env otherFiles (.ok otherFile) →
        (overrides.layer.above (environmentLayer env)).AgreeBelow file otherFile →
        resolve overrides env otherFiles = resolve overrides env files) ∧
    ∀ other : Environment, (∀ name ∈ overrides.consulted, env name = other name) →
      resolve overrides other files = resolve overrides env files := by
  refine ⟨exists_fileGives overrides env files, fun e => resolve_of_fileGives_error, ?_,
    fun other hagree => (resolve_congr hagree).symm⟩
  intro file hfile
  refine ⟨fun value => resolve_of_malformedPort hfile, fun hport value => resolve_of_malformedBrokerId hfile hport,
    fun s => resolve_eq_ok_iff hfile, ?_, fun _ _ hother hagree => (resolve_congr_file hfile hother hagree).symm⟩
  intro hport hid hincomplete
  obtain ⟨names, hvalid, hnames⟩ := validate_of_not_complete hincomplete
  refine ⟨names, ?_, hnames⟩
  rw [resolve_of_wellFormed hfile hport hid, hvalid]
  rfl

/-- A path and a port given explicitly, over a variable for each that is of no
    use. -/
def shadowing : Overrides := { path := some "mt7.json", port := some 9000 }

def shadowed : Environment
  | "MT7_CONFIG" => some "nowhere.json"
  | "MT7_PORT" => some "http"
  | "MT7_BROKER_ID" => some " 42 "
  | _ => none

def settingsFiles : Files
  | "mt7.json" => .ok "\x7b\"host\":\"h\",\"port\":1,\"brokerId\":7,\"password\":\"p\"\x7d"
  | _ => .error "No such file"

/-- Explicitly given, a path and a port hide an environment that names no file
    and holds no port; the port of the file is hidden as well. The broker's
    number comes from the variable, trimmed, over the one in the file. -/
theorem resolve_layered_shadowing :
    FileGives shadowing shadowed settingsFiles
        (.ok { host := some "h", port := some 1, brokerId := some 7, password := some "p" }) ∧
      resolve shadowing shadowed settingsFiles =
        .ok { host := "h", port := 9000, brokerId := 42, password := "p" } := by
  have hfile : FileGives shadowing shadowed settingsFiles (.ok _) := .read rfl rfl rfl
  obtain ⟨-, -, hread, -⟩ := resolve_layered shadowing shadowed settingsFiles
  obtain ⟨-, -, hok, -⟩ := hread _ hfile
  refine ⟨hfile, (hok _).mpr ⟨?_, ?_, rfl, by decide⟩⟩
  · rintro value ⟨hnone, -⟩
    cases hnone
  · rintro value ⟨-, hvalue, hnumber⟩
    cases hvalue
    revert hnumber
    decide

end Brokerage.Settings
