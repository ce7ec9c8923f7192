import DeviceScope.Config.Basic
import DeviceScope.Json.Printer
import DeviceScope.Time.SpanText
import DeviceScope.Toml.Document

/-!
# Written configurations

A configuration is a TOML document with one key for each setting. Spans are written as texts such
as `"1h 30m"`. A setting that is left out has its standard value, and other keys are passed over.
-/

namespace DeviceScope.Config

def spanOf? : Toml.Value → Option Span
  | .string text => Span.ofText? text
  | _ => none

/-- The number that a value of a document is, if it fits in 64 bits. -/
def countOf? : Toml.Value → Option UInt64
  | .integer value => if 0 ≤ value ∧ value < UInt64.size then some (.ofNat value.toNat) else none
  | _ => none

/-- The setting under a key; its standard value if the key is missing. -/
def setting? {α : Type} (members : Toml.Members) (key : String) (standard : α)
    (read? : Toml.Value → Option α) : Option α :=
  match members.lookup key with
  | none => some standard
  | some value => read? value

/-- The settings in a document, valid or not. -/
def ofMembers? (members : Toml.Members) : Option Config := do
  let refreshRate ← setting? members "refresh_rate" standard.refreshRate spanOf?
  let refreshDelay ← setting? members "refresh_delay" standard.refreshDelay spanOf?
  let cycleTimeout ← setting? members "cycle_timeout" standard.cycleTimeout fun value =>
    (spanOf? value).map some
  let capacity ← setting? members "notification_capacity" standard.capacity countOf?
  some ⟨refreshRate, refreshDelay, cycleTimeout, capacity⟩

/-- The valid configuration that a document spells. -/
def ofToml (document : String) : Except ConfigError Config :=
  match Toml.ofText? document >>= ofMembers? with
  | none => .error (.malformed syntaxDetail)
  | some config => config.validate.map fun _ => config

def spanLine (key : String) (span : Span) : String := key ++ " = \"" ++ span.toText ++ "\"\n"

/-- The document of a configuration: a line for each setting, none for an absent timeout. -/
def toToml (config : Config) : String :=
  spanLine "refresh_rate" config.refreshRate ++ spanLine "refresh_delay" config.refreshDelay ++
    (config.cycleTimeout.map (spanLine "cycle_timeout")).getD "" ++
    "notification_capacity = " ++ Decimal.text config.capacity.toNat ++ "\n"

/-- The settings with their names as JSON values. -/
def jsonMembers (config : Config) : List (String × Json) := [
  ("refresh_rate", .text config.refreshRate.toText),
  ("refresh_delay", .text config.refreshDelay.toText),
  ("cycle_timeout", (config.cycleTimeout.map fun span => Json.text span.toText).getD .null),
  ("notification_capacity", .nat config.capacity.toNat)]

def toJson (config : Config) : Json := .fields config.jsonMembers

end DeviceScope.Config
