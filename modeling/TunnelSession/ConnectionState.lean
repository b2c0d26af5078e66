/-
  The state of the connection.

  Six states; three of them (`connecting`, `reconnecting`, `disconnecting`) belong to a request
  that is still running.
-/
import TunnelSession.Datum

namespace TunnelSession

/-- Where the connection is in its life. -/
inductive ConnectionState where
  | disconnected
  | connecting
  | connected
  | disconnecting
  | reconnecting
  | error
  deriving DecidableEq, Repr

namespace ConnectionState

instance : Inhabited ConnectionState := ⟨.disconnected⟩

/-- The written name. -/
def name : ConnectionState → String
  | .disconnected => "disconnected"
  | .connecting => "connecting"
  | .connected => "connected"
  | .disconnecting => "disconnecting"
  | .reconnecting => "reconnecting"
  | .error => "error"

/-- All states. -/
def all : List ConnectionState :=
  [.disconnected, .connecting, .connected, .disconnecting, .reconnecting, .error]

/-- The state of a written name. -/
def ofName? (s : String) : Option ConnectionState := all.find? (·.name == s)

/-- Is the tunnel up? -/
def isConnected (s : ConnectionState) : Bool := s == .connected

/-- Is a request still running? -/
def isTransitioning : ConnectionState → Bool
  | .connecting | .disconnecting | .reconnecting => true
  | _ => false

/-- Did the last request fail? -/
def isError (s : ConnectionState) : Bool := s == .error

/-- Read a state. -/
def read {V : Type} [Datum V] (v : V) : Option ConnectionState := (Datum.variant v).bind ofName?

theorem ofName?_name (s : ConnectionState) : ofName? s.name = some s := by
  cases s <;> decide

end ConnectionState

end TunnelSession
