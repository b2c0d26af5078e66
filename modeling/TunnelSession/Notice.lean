/-
  What the library reports.

  NOTICES.  Everything that is reported is a `Notice`: a cause with its data.  Its severity
  (`level`) and its wording (`message`) are functions of it, so a log is a history that can be
  reasoned about, and text only when it is shown.

  LEVELS.  A filter of some level lets everything at least as severe through.
-/
import TunnelSession.Error
import TunnelSession.Operation
import TunnelSession.Server
import TunnelSession.Trigger

namespace TunnelSession

/-- How severe a notice is. -/
inductive Level where
  | error
  | warn
  | info
  | debug
  | trace
  deriving DecidableEq, Repr

namespace Level

/-- The name. -/
def name : Level → String
  | .error => "ERROR"
  | .warn => "WARN"
  | .info => "INFO"
  | .debug => "DEBUG"
  | .trace => "TRACE"

/-- All levels, the most severe first. -/
def all : List Level := [.error, .warn, .info, .debug, .trace]

/-- Where the level stands among all; the most severe is first. -/
def rank : Level → Nat
  | .error => 0
  | .warn => 1
  | .info => 2
  | .debug => 3
  | .trace => 4

/-- Does a filter of this level let the other through? -/
def admits (filter other : Level) : Bool := other.rank ≤ filter.rank

end Level

/-- The settings that can be switched by themselves. -/
inductive Flag where
  | killSwitch
  | autoConnect
  deriving DecidableEq, Repr

/-- The name. -/
def Flag.name : Flag → String
  | .killSwitch => "kill switch"
  | .autoConnect => "auto-connect"

/-- What a trigger asks of the controller. -/
inductive Request where
  | quickConnect
  | disconnect
  | connect (id : String)
  deriving DecidableEq, Repr

/-- The request in words. -/
def Request.describe : Request → String
  | .quickConnect => "quick connect"
  | .disconnect => "disconnect"
  | .connect id => "connect to " ++ id

/-- A number of milliseconds as seconds with a fraction, or as milliseconds below a second. -/
def durationText (ms : Nat) : String :=
  if ms = 0 then "0ns"
  else if ms < 1000 then toString ms ++ "ms"
  else
    let low := Nat.toDigits 10 (ms % 1000)
    let places := List.replicate (3 - low.length) '0' ++ low
    let shown := (places.reverse.dropWhile (· == '0')).reverse
    toString (ms / 1000) ++ (if shown.isEmpty then "" else "." ++ String.ofList shown) ++ "s"

/-- A report. -/
inductive Notice where
  -- the connection
  | connectDropped
  | connectAborted
  | nothingToReconnect
  | connecting (id : String)
  | quickConnecting
  | connected (server : Server)
  | connectFailed (e : BackendError)
  | disconnecting
  | disconnected
  | disconnectFailed (e : BackendError)
  -- the kill switch
  | killSwitchSet (on : Bool)
  | trafficAllowed
  | trafficBlocked
  -- telemetry
  | statsFailed (e : BackendError)
  | pollingStarted (period : Nat)
  | pollingStopped
  | pollingEnded
  | polled
  -- settings
  | settingsUpdated (protocol : Protocol)
  | flagKept (flag : Flag) (value : Bool)
  | flagSet (flag : Flag) (value : Bool)
  -- the catalog
  | catalogRefreshed (size : Nat)
  | catalogFailed (e : BackendError)
  | favoriteToggled (id : String) (value : Bool)
  -- the client
  | autoConnecting
  | versionFailed (e : BackendError)
  -- triggers
  | bridgeActivated
  | bridgeDeactivated
  | triggersClosed
  | triggered (e : Trigger)
  | pageDropped
  | requestCancelled (r : Request)
  | requestFailed (r : Request) (e : SessionError)
  -- the backend
  | called (op : Operation)
  -- the daemon
  | starting
  | backendVersion (version : String)
  | autoConnectFailed (e : SessionError)
  | pageShown (path : String)
  | statusShown (text : String)
  | unknownTrigger (line : String)
  | bridgeGone
  | shutdownFailed (e : SessionError)
  | stopping
  deriving DecidableEq, Repr

namespace Notice

/-- On or off. -/
def onOff (b : Bool) : String := if b then "on" else "off"

/-- How severe it is. -/
def level : Notice → Level
  | .connectFailed _ | .disconnectFailed _ => .error
  | .nothingToReconnect | .trafficBlocked | .statsFailed _ | .flagKept .. | .catalogFailed _
  | .versionFailed _ | .requestFailed .. | .autoConnectFailed _ | .unknownTrigger _ | .bridgeGone
  | .shutdownFailed _ => .warn
  | .killSwitchSet _ | .trafficAllowed | .pollingStarted _ | .pollingStopped | .pollingEnded
  | .polled | .favoriteToggled .. | .triggersClosed | .triggered _ | .pageDropped
  | .requestCancelled _ | .called _ => .debug
  | _ => .info

/-- The wording. -/
def message : Notice → String
  | .connectDropped => "Queued connect cancelled"
  | .connectAborted => "Pending connect cancelled by disconnect"
  | .nothingToReconnect => "Reconnect requested with no known server"
  | .connecting id => "Connecting to VPN (" ++ id ++ ")"
  | .quickConnecting => "Quick connecting to VPN"
  | .connected server => "VPN connected to " ++ server.name ++ " (" ++ server.location ++ ")"
  | .connectFailed e => "VPN connection failed: " ++ e.message
  | .disconnecting => "Disconnecting VPN"
  | .disconnected => "VPN disconnected"
  | .disconnectFailed e => "VPN disconnect failed: " ++ e.message
  | .killSwitchSet on => "Kill switch " ++ (if on then "enabled" else "disabled")
  | .trafficAllowed => "Kill switch: tunnel up, traffic allowed"
  | .trafficBlocked => "Kill switch: tunnel down, blocking traffic"
  | .statsFailed e => "Failed to fetch connection stats: " ++ e.message
  | .pollingStarted period => "Telemetry driver started (" ++ durationText period ++ ")"
  | .pollingStopped => "Telemetry driver stopped"
  | .pollingEnded => "Telemetry driver exited"
  | .polled => "Telemetry tick"
  | .settingsUpdated protocol => "Settings updated (protocol: " ++ protocol.name ++ ")"
  | .flagKept flag value =>
    "Backend kept " ++ flag.name ++ " " ++ onOff value ++ " (requested " ++ onOff (!value) ++ ")"
  | .flagSet flag value => flag.name ++ " " ++ onOff value
  | .catalogRefreshed size => "Server catalog refreshed (" ++ toString size ++ " servers)"
  | .catalogFailed e => "Failed to fetch servers, keeping cached list: " ++ e.message
  | .favoriteToggled id value => "Favorite " ++ id ++ ": " ++ (if value then "true" else "false")
  | .autoConnecting => "Auto-connect enabled, quick connecting"
  | .versionFailed e => "Failed to get app version: " ++ e.message
  | .bridgeActivated => "Trigger bridge activated"
  | .bridgeDeactivated => "Trigger bridge deactivated"
  | .triggersClosed => "Trigger channel closed"
  | .triggered e => "Trigger event: " ++ e.print
  | .pageDropped => "Navigation receiver gone, dropping request"
  | .requestCancelled r => "Triggered " ++ r.describe ++ " cancelled"
  | .requestFailed r e => "Triggered " ++ r.describe ++ " failed: " ++ e.message
  | .called op => "Simulated backend: " ++ op.name
  | .starting => "Warden starting..."
  | .backendVersion version => "Backend version " ++ version
  | .autoConnectFailed e => "Auto-connect failed: " ++ e.message
  | .pageShown path => "Navigate to " ++ path
  | .statusShown text => text
  | .unknownTrigger line => "Unknown trigger: " ++ line
  | .bridgeGone => "Trigger bridge is gone"
  | .shutdownFailed e => "Disconnect on shutdown failed: " ++ e.message
  | .stopping => "Warden shutting down"

/-- One line of a log. -/
def line (n : Notice) : String := n.level.name ++ " " ++ n.message

/-- The lines that a filter lets through. -/
def lines (filter : Level) (log : List Notice) : List String :=
  (log.filter fun n => filter.admits n.level).map line

end Notice

end TunnelSession
