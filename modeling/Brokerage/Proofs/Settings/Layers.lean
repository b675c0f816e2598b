import Brokerage.Proofs.Outcome
import Brokerage.Settings

namespace Brokerage

/-- A field that may be left out; null is not that. -/
def Record.given {α : Type} (decode : Json → Option α) (name : String) (members : List (String × Json)) :
    Option (Option α) :=
  match members.lookup name with
  | none => some none
  | some v => (decode v).map some

private theorem Record.defaulted_eq_map_given {α : Type} (default : α) (decode : Json → Option α) (name : String)
    (members : List (String × Json)) :
    defaulted default decode name members = (given decode name members).map (·.getD default) := by
  unfold defaulted given
  cases members.lookup name with
  | none => rfl
  | some v => cases hread : decode v <;> simp [hread]

namespace Settings

/-- What one source says about the settings. -/
structure Layer where
  host : Option String := none
  port : Option UInt16 := none
  brokerId : Option UInt64 := none
  password : Option String := none
  terminalUrl : Option String := none
  timeoutMs : Option UInt64 := none

namespace Layer

/-- What the upper layer gives, and what the lower one does where the upper
    gives nothing. -/
def above (upper lower : Layer) : Layer where
  host := upper.host.or lower.host
  port := upper.port.or lower.port
  brokerId := upper.brokerId.or lower.brokerId
  password := upper.password.or lower.password
  terminalUrl := upper.terminalUrl.or lower.terminalUrl
  timeoutMs := upper.timeoutMs.or lower.timeoutMs

/-- The settings given, and the default for each that is not. -/
def settings (l : Layer) : Settings where
  host := l.host.getD ""
  port := l.port.getD 0
  brokerId := l.brokerId.getD 0
  password := l.password.getD ""
  terminalUrl := l.terminalUrl
  timeoutMs := l.timeoutMs.getD 30000

/-- Two layers give the same where the one above them gives nothing. -/
structure AgreeBelow (upper a b : Layer) : Prop where
  host : upper.host = none → a.host = b.host
  port : upper.port = none → a.port = b.port
  brokerId : upper.brokerId = none → a.brokerId = b.brokerId
  password : upper.password = none → a.password = b.password
  terminalUrl : upper.terminalUrl = none → a.terminalUrl = b.terminalUrl
  timeoutMs : upper.timeoutMs = none → a.timeoutMs = b.timeoutMs

/-- What is tried second counts only where the first gives nothing. -/
theorem or_eq_or_of_eq_none {α : Type} {upper a b : Option α} (h : upper = none → a = b) :
    upper.or a = upper.or b := by
  cases upper with
  | none => exact h rfl
  | some v => rfl

/-- What lies below a value that is given does not count. Layers that agree
    wherever the upper one is silent cannot be told apart once it lies above
    them. -/
theorem AgreeBelow.above_eq {upper a b : Layer} (h : AgreeBelow upper a b) : upper.above a = upper.above b := by
  simp only [above, or_eq_or_of_eq_none h.host, or_eq_or_of_eq_none h.port, or_eq_or_of_eq_none h.brokerId,
    or_eq_or_of_eq_none h.password, or_eq_or_of_eq_none h.terminalUrl, or_eq_or_of_eq_none h.timeoutMs]

/-- Layers may be stacked in either order of joining, so that a stack of three
    needs no brackets. -/
theorem above_assoc (a b c : Layer) : (a.above b).above c = a.above (b.above c) := by
  simp only [above, Option.or_assoc]

/-- The settings that the members of a file give. -/
def ofMembers? (members : List (String × Json)) : Option Layer := do
  return {
    host := ← Record.given Json.asString? "host" members
    port := ← Record.given Json.asUInt16? "port" members
    brokerId := ← Record.given Json.asUInt64? "broker_id" members
    password := ← Record.given Json.asString? "password" members
    terminalUrl := ← Record.optional Json.asString? "terminal_url" members
    timeoutMs := ← Record.given Json.asUInt64? "timeout_ms" members }

/-- The settings that the text of a file gives. -/
def ofText? (text : String) : Option Layer :=
  (Record.parse? fields text).bind ofMembers?

end Layer

private theorem ofMembers?_eq (members : List (String × Json)) :
    ofMembers? members = (Layer.ofMembers? members).map Layer.settings := by
  simp [ofMembers?, Layer.ofMembers?, Record.defaulted_eq_map_given, Layer.settings, Option.map_bind, Option.bind_map,
    Function.comp_def]

/-- Reading a file for settings is reading it for a layer and filling in the
    defaults. The layer remembers which settings were given, which the settings
    themselves do not. -/
theorem parse?_eq (text : String) : parse? text = (Layer.ofText? text).map Layer.settings := by
  unfold parse? Layer.ofText?
  cases Record.parse? fields text with
  | none => rfl
  | some members => exact ofMembers?_eq members

end Settings

end Brokerage
