import DeviceScope.Fault
import DeviceScope.Time.Span

/-!
# Configuration

How often the records are reconciled with the directory, how old a record may grow before it is
looked up again, how long one reconciliation may wait for the directory, and how many
notifications are kept for a subscriber.
-/

namespace DeviceScope

/-- The settings of a cache and of its refresh service. -/
structure Config where
  /-- The time between two reconciliations. -/
  refreshRate : Span
  /-- The age beyond which a record is looked up again when a decision asks for it. -/
  refreshDelay : Span
  /-- How long the listing of one reconciliation may take. -/
  cycleTimeout : Option Span
  /-- How many notifications are kept. -/
  capacity : UInt64
  deriving DecidableEq, Repr

namespace Config

/-- The settings that hold where nothing else is said: an hour, five minutes, no bound, 64. -/
def standard : Config := ⟨.ofSeconds 3600, .ofSeconds 300, none, 64⟩

/-- Settings for tests, with quick reconciliations. -/
def quick : Config := ⟨.ofMillis 50, .ofSeconds 120, none, 16⟩

instance : Inhabited Config := ⟨standard⟩

/-- Refuses a zero where there has to be something. A refresh delay of zero is allowed. -/
def validate (config : Config) : Except ConfigError Unit :=
  if config.refreshRate.isZero then .error (.invalidValue "refresh_rate must be > 0")
  else if config.cycleTimeout.any Span.isZero then
    .error (.invalidValue "cycle_timeout must be > 0 when set")
  else if config.capacity = 0 then .error (.invalidValue "notification_capacity must be > 0")
  else .ok ()

end Config

end DeviceScope
