/-
  Connects and disconnects.

  ORDER.  A request holds the connection from its first change of the session to its last, and
  those that wait are in line in the order they came.

  SUPERSEDING.  Wherever a connect waits, it looks at its ticket first when it goes on.  In line,
  a void ticket ends it without a trace; during the call it leaves the state to the disconnect
  that is behind it; during the first look at the statistics it is through already and only
  forgoes the poller.

  FAILURE.  The backend's error is returned and the state becomes `error`; the current server stays.
-/
import TunnelSession.Client.Telemetry

namespace TunnelSession.Client

/-! ## Connecting -/

/-- A connect is through: give back the connection. -/
def finishConnect (w : Client) (server : Server) : Client × Progress Lifecycle Settled :=
  (w.releaseTransition, .done (.ok (some server)))

/-- The first look at the statistics is over. -/
def sampled (w : Client) (server : Server) : Client × Progress Lifecycle Settled :=
  (w.startPolling w.config.telemetryInterval.toNat).finishConnect server

/-- The tunnel is up: remember the server and look at the statistics. -/
def tunnelMade (w : Client) (t : TaskId) (ticket : Nat) (server : Server) :
    Client × Progress Lifecycle Settled :=
  let w := w.update fun s =>
    { s with state := .connected, recents := s.recents.push server.id, server := some server }
  let w := w.raiseTunnel.say (.connected server)
  match w.fetchStats t with
  | (w, .waiting call) => (w.enlist t, .waiting (.sampling ticket server call))
  | (w, .done _) => w.sampled server

/-- The backend refused: the state is `error`. -/
def connectRefused (w : Client) (e : BackendError) : Client × Progress Lifecycle Settled :=
  let w := (w.say (.connectFailed e)).update fun s => { s with state := .error }
  (w.releaseTransition, .done (.error (.backend e)))

/-- The backend answered a connect. -/
def dialed (w : Client) (t : TaskId) (ticket : Nat) :
    Except BackendError Server → Client × Progress Lifecycle Settled
  | .ok server => w.tunnelMade t ticket server
  | .error e => w.connectRefused e

/-- Leave the old connection behind and call the backend. -/
def dial (w : Client) (t : TaskId) (ticket : Nat) (state : ConnectionState) (ask : Ask Server) :
    Client × Progress Lifecycle Settled :=
  -- the tunnel counts as down from here on, whatever the backend answers
  let w := w.update fun s => { s with state := state, stats := none }
  match w.stopPolling.lowerTunnel.startCall t ask with
  | (w, .waiting call) => (w.enlist t, .waiting (.dialing ticket call))
  | (w, .done answer) => w.dialed t ticket answer

/-- A connect holds the connection. -/
def beginConnect (w : Client) (t : TaskId) (ticket : Nat) :
    Target → Client × Progress Lifecycle Settled
  | .server id => (w.say (.connecting id)).dial t ticket .connecting (.connect id)
  | .best => (w.say .quickConnecting).dial t ticket .connecting .quickConnect
  | .last =>
    match w.session.server with
    | some server =>
      (w.say (.connecting server.id)).dial t ticket .reconnecting (.connect server.id)
    | none =>
      ((w.say .nothingToReconnect).releaseTransition,
        .done (.error (.backend (.validation "no server to reconnect to"))))

/-- A connect whose ticket is void before it began. -/
def dropConnect (w : Client) (t : TaskId) : Client × Progress Lifecycle Settled :=
  ((w.say .connectDropped).withdrawTransition t, .done (.error .cancelled))

/-- Ask for a connect. -/
def requestConnect (w : Client) (t : TaskId) (target : Target) (ticket : Nat) :
    Client × Progress Lifecycle Settled :=
  if w.isVoid ticket then (w.say .connectDropped, .done (.error .cancelled))
  else
    let w := { w with transition := w.transition.request t }
    if w.transition.isHeldBy t then w.beginConnect t ticket target
    else (w.enlist t, .waiting (.queued target ticket))

/-! ## Disconnecting -/

/-- The backend answered a disconnect. -/
def hungUp (w : Client) : Except BackendError Unit → Client × Progress Lifecycle Settled
  | .ok () =>
    let w := w.update fun s => { s with state := .disconnected, server := none, stats := none }
    ((w.say .disconnected).releaseTransition, .done (.ok none))
  | .error e =>
    let w := (w.say (.disconnectFailed e)).update fun s => { s with state := .error }
    (w.releaseTransition, .done (.error (.backend e)))

/-- A disconnect holds the connection. -/
def beginDisconnect (w : Client) (t : TaskId) : Client × Progress Lifecycle Settled :=
  let w := (w.say .disconnecting).update fun s => { s with state := .disconnecting, stats := none }
  match w.stopPolling.lowerTunnel.startCall t .disconnect with
  | (w, .waiting call) => (w, .waiting (.hangingUp call))
  | (w, .done answer) => w.hungUp answer

/-- Ask for a disconnect that cancels nothing by itself. -/
def queueDisconnect (w : Client) (t : TaskId) : Client × Progress Lifecycle Settled :=
  let w := { w with transition := w.transition.request t }
  if w.transition.isHeldBy t then w.beginDisconnect t else (w, .waiting .leaving)

/-- Ask for a disconnect; every connect before it is superseded. -/
def requestDisconnect (w : Client) (t : TaskId) : Client × Progress Lifecycle Settled :=
  w.cancelConnects.queueDisconnect t

/-! ## Going on -/

/-- Go on with a connect or a disconnect. -/
def resumeLifecycle (w : Client) (t : TaskId) : Lifecycle → Client × Progress Lifecycle Settled
  | .queued target ticket =>
    -- the ticket comes first, even if the connection was handed over meanwhile
    if w.isVoid ticket then (w.delist t).dropConnect t
    else if w.transition.isHeldBy t then (w.delist t).beginConnect t ticket target
    else (w, .waiting (.queued target ticket))
  | .dialing ticket call =>
    if w.isVoid ticket then
      -- the state stays as it is: the disconnect that is next in line changes it
      ((((w.delist t).disarm t).say .connectAborted).releaseTransition, .done (.error .cancelled))
    else match w.resumeCall t call with
      | (w, .waiting call) => (w, .waiting (.dialing ticket call))
      | (w, .done answer) => (w.delist t).dialed t ticket answer
  | .sampling ticket server call =>
    -- the connect is through, so it succeeds, but no poller is started
    if w.isVoid ticket then ((w.delist t).disarm t).finishConnect server
    else match w.resumeStats t call with
      | (w, .waiting call) => (w, .waiting (.sampling ticket server call))
      | (w, .done _) => (w.delist t).sampled server
  | .leaving =>
    if w.transition.isHeldBy t then w.beginDisconnect t else (w, .waiting .leaving)
  | .hangingUp call =>
    match w.resumeCall t call with
    | (w, .waiting call) => (w, .waiting (.hangingUp call))
    | (w, .done answer) => w.hungUp answer

/-- Drop a connect or a disconnect where it waits: it lets go of everything, and undoes nothing. -/
def dropLifecycle (w : Client) (t : TaskId) : Lifecycle → Client
  | .queued .. => (w.delist t).withdrawTransition t
  | .dialing .. => ((w.delist t).disarm t).releaseTransition
  | .sampling .. => ((w.delist t).disarm t).releaseTransition
  | .leaving => w.withdrawTransition t
  | .hangingUp _ => (w.disarm t).releaseTransition

end TunnelSession.Client
