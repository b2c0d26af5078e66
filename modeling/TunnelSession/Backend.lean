/-
  A simulated backend.

  REQUESTS.  `Ask α` is a request with an answer of type `α`, and `Backend.answer` what it does
  once its latency is over: the oldest failure that was scripted for its operation, or else its
  effect.

  TUNNEL.  Connecting brings a tunnel up, also when one is up already; its counters start at zero.
  Every look at the statistics adds a fixed amount to them.  Times are in milliseconds.
-/
import TunnelSession.Notice
import TunnelSession.Settings
import TunnelSession.Stats

namespace TunnelSession

/-- A request, by the type of its answer. -/
inductive Ask : Type → Type where
  | connect (id : String) : Ask Server
  | quickConnect : Ask Server
  | disconnect : Ask Unit
  | servers : Ask (List Server)
  | save (settings : Settings) : Ask Unit
  | toggle (flag : Flag) (value : Bool) : Ask Bool
  | stats : Ask Stats
  | version : Ask String

/-- The operation that switches a flag. -/
def Flag.operation : Flag → Operation
  | .killSwitch => .toggleKillSwitch
  | .autoConnect => .toggleAutoConnect

/-- The operation of a request. -/
def Ask.operation {α : Type} : Ask α → Operation
  | .connect _ => .connect
  | .quickConnect => .quickConnect
  | .disconnect => .disconnect
  | .servers => .getServers
  | .save _ => .updateSettings
  | .toggle flag _ => flag.operation
  | .stats => .getStats
  | .version => .getVersion

/-- A tunnel that is up: its server, since when, what it counted, and when it was last looked at.

The two counters are exact.  As 64-bit numbers they would be the same for the first 2^46 - 1 looks,
since a look adds at most 2^18 bytes (`bytesInPerLook`). -/
structure Tunnel where
  server : String
  since : Nat
  bytesIn : Nat
  bytesOut : Nat
  lastLook : Nat
  deriving DecidableEq, Repr

/-- A simulated backend. -/
structure Backend where
  servers : List Server
  latency : Nat
  version : String
  calls : Operation.Table Nat
  failures : Operation.Table (List BackendError)
  pins : Operation.Table (Option Bool)
  /-- How long answers are held back, for the next calls of each operation. -/
  holds : Operation.Table (List Nat)
  tunnel : Option Tunnel
  persisted : Option Settings
  deriving DecidableEq

namespace Backend

/-- A backend that was not called yet. -/
def make (servers : List Server) (latency : Nat) (version : String) : Backend where
  servers := servers
  latency := latency
  version := version
  calls := .const 0
  failures := .const []
  pins := .const none
  holds := .const []
  tunnel := none
  persisted := none

/-- The version of the built-in backend. -/
def builtinVersion : String := "0.1.0"

/-! ## Scripting -/

/-- Let one more call of an operation fail, after those already scripted. -/
def failNext (b : Backend) (op : Operation) (e : BackendError) : Backend :=
  { b with failures := b.failures.set op (b.failures.get op ++ [e]) }

/-- Let a toggle acknowledge one value only. -/
def pin (b : Backend) (op : Operation) (value : Bool) : Backend :=
  { b with pins := b.pins.set op (some value) }

/-- Hold back the answer of one more call of an operation. -/
def holdNext (b : Backend) (op : Operation) (ms : Nat) : Backend :=
  { b with holds := b.holds.set op (b.holds.get op ++ [ms]) }

/-- The server that the tunnel is up to. -/
def connectedServer (b : Backend) : Option String := b.tunnel.map (·.server)

/-! ## Answers -/

/-- Bytes received between two looks: 2^18. -/
def bytesInPerLook : Nat := 262144

/-- Bytes sent between two looks: 2^15. -/
def bytesOutPerLook : Nat := 32768

/-- Count a call. -/
def count (b : Backend) (op : Operation) : Backend :=
  { b with calls := b.calls.set op (b.calls.get op + 1) }

/-- How long the answer of a call that starts now is held back. -/
def hold (b : Backend) (op : Operation) : Nat := (b.holds.get op).head?.getD 0

/-- Forget the oldest hold of an operation. -/
def dropHold (b : Backend) (op : Operation) : Backend :=
  { b with holds := b.holds.set op (b.holds.get op).tail }

/-- Bring the tunnel up. -/
def bringUp (b : Backend) (server : Server) (now : Nat) : Backend :=
  { b with tunnel := some ⟨server.id, now, 0, 0, now⟩ }

/-- Milliseconds in seconds: whole seconds and the fraction of a second, each a double, are
added. -/
def seconds (ms : Nat) : Binary64 :=
  -- both parts are exact or rounded once, and their sum is rounded once more
  let whole := Binary64.ofNat (ms / 1000)
  let part := (Binary64.ofNat (ms % 1000 * 1000000)).div (.ofNat 1000000000)
  match whole.classify, part.classify with
  | .finite _ m d, .finite _ n e => Binary64.addMagnitudes m d n e
  | _, _ => whole

/-- Bytes per second. -/
def rate (bytes ms : Nat) : Binary64 :=
  if ms = 0 then .zero false else (Binary64.ofNat bytes).div (seconds ms)

/-- Look at the counters of a tunnel. -/
def look (t : Tunnel) (now : Nat) : Stats × Tunnel :=
  let elapsed := now - t.lastLook
  let bytesIn := t.bytesIn + bytesInPerLook
  let bytesOut := t.bytesOut + bytesOutPerLook
  (⟨bytesIn, bytesOut, (now - t.since) / 1000, rate bytesInPerLook elapsed,
      rate bytesOutPerLook elapsed⟩,
    { t with bytesIn := bytesIn, bytesOut := bytesOut, lastLook := now })

/-- What a request does when nothing makes it fail. -/
def perform {α : Type} (b : Backend) (now : Nat) : Ask α → Except BackendError α × Backend
  | .connect id =>
    match Server.find? id b.servers with
    | some server => (.ok server, b.bringUp server now)
    | none => (.error (.validation ("unknown server: " ++ id)), b)
  | .quickConnect =>
    match Server.best? b.servers with
    | some server => (.ok server, b.bringUp server now)
    | none => (.error (.rejected "no servers available"), b)
  | .disconnect => (.ok (), { b with tunnel := none })
  | .servers => (.ok b.servers, b)
  | .save settings => (.ok (), { b with persisted := some settings })
  | .toggle flag value => (.ok ((b.pins.get flag.operation).getD value), b)
  | .stats =>
    match b.tunnel with
    | some t => (.ok (look t now).1, { b with tunnel := some (look t now).2 })
    | none => (.error (.rejected "tunnel is down"), b)
  | .version => (.ok b.version, b)

/-- The answer of a request, once its latency is over. -/
def answer {α : Type} (b : Backend) (now : Nat) (ask : Ask α) :
    Except BackendError α × Backend :=
  match b.failures.get ask.operation with
  | e :: rest => (.error e, { b with failures := b.failures.set ask.operation rest })
  | [] => b.perform now ask

/-- A call that nothing else overlaps: its answer, the backend after it, and the time after it. -/
def callAlone {α : Type} (b : Backend) (now : Nat) (ask : Ask α) :
    Except BackendError α × Backend × Nat :=
  let now := now + b.latency
  let (answer, b) := (b.count ask.operation).answer now ask
  (answer, b, now)

end Backend

end TunnelSession
