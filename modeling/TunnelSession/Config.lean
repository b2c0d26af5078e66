/-
  Client configuration.

  RECORD.  Five fields in a fixed order, every one with a default; the last holds the settings
  that a session starts with.

  VALIDITY.  `fault?` names the first thing wrong with a configuration, in the order interval,
  capacity, version, name servers.  Reading a text gives a valid configuration or an error;
  `toToml` writes any configuration whose numbers fit the format.
-/
import TunnelSession.Error
import TunnelSession.Json.Datum
import TunnelSession.Json.Parser
import TunnelSession.Settings
import TunnelSession.Text.Blank
import TunnelSession.Toml.Datum
import TunnelSession.Toml.Parser
import TunnelSession.Toml.Printer

namespace TunnelSession

/-- What a client is created with. -/
structure Config where
  /-- Milliseconds between two looks at the statistics. -/
  telemetryInterval : UInt64
  /-- How many triggers may wait. -/
  triggerCapacity : UInt64
  /-- The version that is shown when the backend does not tell its own. -/
  versionFallback : String
  logLevel : String
  settings : Settings
  deriving DecidableEq

namespace Config

/-- The configuration of a client that was told nothing. -/
def default : Config := ⟨1000, 32, "0.1.0", "info", .default⟩

instance : Inhabited Config := ⟨default⟩

/-! ## Validity -/

/-- What can be wrong with a configuration. -/
inductive Fault where
  | interval
  | capacity
  | version
  | nameServers
  deriving DecidableEq, Repr

/-- The text. -/
def Fault.message : Fault → String
  | .interval => "telemetry_interval_ms must be positive"
  | .capacity => "trigger_queue_capacity must be positive"
  | .version => "app_version_fallback is empty"
  | .nameServers => "at least one DNS server is required"

/-- The first thing wrong. -/
def fault? (c : Config) : Option Fault :=
  if c.telemetryInterval = 0 then some .interval
  else if c.triggerCapacity = 0 then some .capacity
  else if (Text.trimChars c.versionFallback.toList).isEmpty then some .version
  else if c.settings.dnsServers.isEmpty then some .nameServers
  else none

/-- Is the configuration usable? -/
def validate (c : Config) : Except ConfigError Unit :=
  match c.fault? with
  | some fault => .error (.invalid fault.message)
  | none => .ok ()

/-! ## Written forms -/

/-- Names of the fields, in order. -/
def fieldNames : List String :=
  ["telemetry_interval_ms", "trigger_queue_capacity", "app_version_fallback", "log_level",
    "settings"]

/-- Read a configuration; what is missing takes its default. -/
def read {V : Type} [Datum V] (v : V) : Option Config := do
  match ← Datum.slots fieldNames v with
  | [telemetryInterval, triggerCapacity, versionFallback, logLevel, settings] =>
    some {
      telemetryInterval := ← Datum.orElse default.telemetryInterval Datum.word64 telemetryInterval
      triggerCapacity := ← Datum.orElse default.triggerCapacity Datum.word64 triggerCapacity
      versionFallback := ← Datum.orElse default.versionFallback Datum.text versionFallback
      logLevel := ← Datum.orElse default.logLevel Datum.text logLevel
      settings := ← Datum.orElse default.settings Settings.read settings }
  | _ => none

/-- The values of the fields, in order. -/
def fieldValues (c : Config) : List Json :=
  [.nat c.telemetryInterval.toNat, .nat c.triggerCapacity.toNat, .text c.versionFallback,
    .text c.logLevel, c.settings.toJson]

/-- The configuration as an object. -/
def toJson (c : Config) : Json := .record (fieldNames.zip c.fieldValues)

/-- What is said of a text that spells no configuration. -/
def unreadable : ConfigError := .parse "not a configuration"

/-- A configuration that was read, if it is valid. -/
def checked : Option Config → Except ConfigError Config
  | none => .error unreadable
  | some c =>
    match c.validate with
    | .ok () => .ok c
    | .error e => .error e

/-- The configuration that a JSON text spells. -/
def ofJson (s : String) : Except ConfigError Config := checked ((Json.parse s).bind read)

/-- The configuration that a TOML text spells. -/
def ofToml (s : String) : Except ConfigError Config := checked ((Toml.parse s).bind read)

/-- The assignments of a TOML text. -/
def tomlFields (c : Config) : List (String × Toml.Field) :=
  [("telemetry_interval_ms", .natural c.telemetryInterval.toNat),
    ("trigger_queue_capacity", .natural c.triggerCapacity.toNat),
    ("app_version_fallback", .text c.versionFallback),
    ("log_level", .text c.logLevel)]

/-- The section of a TOML text that holds the settings. -/
def tomlSettings (s : Settings) : List (String × Toml.Field) :=
  [("kill_switch", .flag s.killSwitch),
    ("auto_connect", .flag s.autoConnect),
    ("protocol", .text s.protocol.name),
    ("split_tunneling", .flag s.splitTunneling),
    ("excluded_apps", .texts s.excludedApps.toList),
    ("dns_servers", .texts (s.dnsServers.map Address.print)),
    ("start_minimized", .flag s.startMinimized),
    ("show_notifications", .flag s.showNotifications)]

/-- The configuration as TOML text. -/
def toToml (c : Config) : Except ConfigError String :=
  if c.tomlFields.all (·.2.fits) then
    .ok (String.ofList (Toml.printDocument c.tomlFields [("settings", tomlSettings c.settings)]))
  else .error (.parse "number out of range")

end Config

end TunnelSession
