/-
  Commands.

  A command is run from where it stands to where it has to wait, or to its reply.  A connect takes
  its ticket when it first runs; the connect that a start ends with, when the catalog is there.
  Commands that only look, or change the favorites, never wait.
-/
import TunnelSession.Client.Lifecycle
import TunnelSession.Client.SettingsWrite

namespace TunnelSession.Client

/-- The status in one line. -/
def statusLine (w : Client) : String :=
  "VPN: " ++ w.session.state.name ++ " | Server: " ++ (w.session.server.elim "-" (·.name)) ++
    " | " ++ (w.session.stats.elim "no stats" (·.format)) ++
    " | Kill switch: " ++ w.killSwitch.state.name

/-- What a connect or a disconnect answers. -/
def settledReply : Settled → Reply
  | .ok (some server) => .connected server
  | .ok none => .disconnected
  | .error e => .failed e

/-- What a start answers that ended with a connect. -/
def startedReply : Settled → Reply
  | .ok server => .started server
  | .error e => .failed e

/-- The progress of a command that is a connect or a disconnect. -/
def asLifecycle (r : Client × Progress Lifecycle Settled) : Client × Progress Point Reply :=
  match r with
  | (w, .waiting l) => (w, .waiting (.lifecycle l))
  | (w, .done s) => (w, .done (settledReply s))

/-- The progress of a start that has come to its connect. -/
def asStart (r : Client × Progress Lifecycle Settled) : Client × Progress Point Reply :=
  match r with
  | (w, .waiting l) => (w, .waiting (.starting l))
  | (w, .done s) => (w, .done (startedReply s))

/-- The progress of a command that changes the settings. -/
def asWrite (r : Client × Progress Writing Reply) : Client × Progress Point Reply :=
  match r with
  | (w, .waiting p) => (w, .waiting (.writing p))
  | (w, .done reply) => (w, .done reply)

/-! ## The catalog -/

/-- What becomes of a list of servers: it replaces the catalog, which an error leaves alone. -/
def commitCatalog (w : Client) : Except BackendError (List Server) → Client × Bool
  | .ok servers =>
    ((w.update fun s => { s with catalog := servers }).say (.catalogRefreshed servers.length), true)
  | .error e => (w.say (.catalogFailed e), false)

/-- After the catalog, a start connects if the settings say so. -/
def continueStart (w : Client) (t : TaskId) : Client × Progress Point Reply :=
  if w.session.settings.autoConnect then
    let w := w.say .autoConnecting
    -- the ticket is of now: a disconnect during the fetch does not supersede this connect
    asStart (w.requestConnect t .best w.epoch)
  else (w, .done (.started none))

/-- The progress of a command that fetches the catalog. -/
def asLoad (t : TaskId) (starts : Bool)
    (r : Client × Progress (Call (List Server)) (Except BackendError (List Server))) :
    Client × Progress Point Reply :=
  match r with
  | (w, .waiting call) => (w, .waiting (.loading starts call))
  | (w, .done answer) =>
    let (w, loaded) := w.commitCatalog answer
    if starts then w.continueStart t else (w, .done (.truth loaded))

/-- Add or remove a favorite. -/
def toggleFavorite (w : Client) (id : String) : Client × Bool :=
  let w := w.update fun s => { s with favorites := s.favorites.toggle id }
  let value := decide (id ∈ w.session.favorites)
  (w.say (.favoriteToggled id value), value)

/-! ## Statistics and version -/

/-- The progress of a command that looks at the statistics. -/
def asSample (r : Client × Progress (Call Stats) Bool) : Client × Progress Point Reply :=
  match r with
  | (w, .waiting call) => (w, .waiting (.sampling call))
  | (w, .done kept) => (w, .done (.truth kept))

/-- The progress of a command that asks for the version; without an answer the configuration has
one. -/
def asVersion (r : Client × Progress (Call String) (Except BackendError String)) :
    Client × Progress Point Reply :=
  match r with
  | (w, .waiting call) => (w, .waiting (.asking call))
  | (w, .done (.ok version)) => (w, .done (.text version))
  | (w, .done (.error e)) => (w.say (.versionFailed e), .done (.text w.config.versionFallback))

/-! ## Running a command -/

/-- Begin a command. -/
def begin (w : Client) (t : TaskId) : Command → Client × Progress Point Reply
  | .connect id => asLifecycle (w.requestConnect t (.server id) w.epoch)
  | .quickConnect => asLifecycle (w.requestConnect t .best w.epoch)
  | .reconnect => asLifecycle (w.requestConnect t .last w.epoch)
  | .disconnect => asLifecycle (w.requestDisconnect t)
  | .start => asLoad t true (w.startCall t .servers)
  | .write p => asWrite (w.requestWrite t p)
  | .fetchServers => asLoad t false (w.startCall t .servers)
  | .fetchStats => asSample (w.fetchStats t)
  | .version => asVersion (w.startCall t .version)
  | .toggleFavorite id => ((w.toggleFavorite id).1, .done (.truth (w.toggleFavorite id).2))
  | .isFavorite id => (w, .done (.truth (decide (id ∈ w.session.favorites))))
  | .find id => (w, .done (.server (Server.find? id w.session.catalog)))
  | .favorites => (w, .done (.servers w.session.favoriteServers))
  | .recents => (w, .done (.servers w.session.recentServers))
  | .catalog => (w, .done (.servers w.session.catalog))
  | .settings => (w, .done (.settings w.session.settings))
  | .status => (w, .done (.text w.statusLine))
  | .snapshot => (w, .done (.session w.session))
  | .reject e => (w, .done (.failed e))

/-- Run a command from where it stands. -/
def runPoint (w : Client) (t : TaskId) : Point → Client × Progress Point Reply
  | .fresh command => w.begin t command
  | .lifecycle l => asLifecycle (w.resumeLifecycle t l)
  | .starting l => asStart (w.resumeLifecycle t l)
  | .loading starts call => asLoad t starts (w.resumeCall t call)
  | .writing p => asWrite (w.resumeWrite t p)
  | .sampling call => asSample (w.resumeStats t call)
  | .asking call => asVersion (w.resumeCall t call)

/-- Drop a command where it waits. -/
def dropPoint (w : Client) (t : TaskId) : Point → Client
  | .fresh _ => w
  | .lifecycle l => w.dropLifecycle t l
  | .starting l => w.dropLifecycle t l
  | .writing p => w.dropWrite t p
  | .loading .. => w.disarm t
  | .sampling _ => w.disarm t
  | .asking _ => w.disarm t

/-- Run the task of a command. -/
def runCommand (w : Client) (t : TaskId) (p : Point) : Client :=
  match w.runPoint t p with
  | (w, .waiting p) => w.setTask t (.command p)
  | (w, .done reply) => w.setTask t (.ended (.replied reply))

end TunnelSession.Client
