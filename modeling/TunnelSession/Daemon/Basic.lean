/-
  The daemon: a client that is told what to do by lines of text.

  LIFE.  `start` creates the client over the built-in backend, fetches the catalog, connects if
  the settings say so, and opens a bridge.  Every line is a trigger, or asks for the status;
  blanks around it do not count, and an empty line is nothing.  Time may pass between two lines.
  `stop` closes the bridge and tears down a connection that is up or on its way.

  REPORT.  `report` is a whole run as it is seen from outside: the lines of the log that the
  filter lets through, or the complaint about a configuration or filter that cannot be used.
-/
import TunnelSession.Client.Schedule
import TunnelSession.ConfigFile
import TunnelSession.Daemon.LogFilter

namespace TunnelSession

/-- A daemon that runs. -/
structure Daemon where
  client : Client
  bridge : BridgeId
  /-- Does it still read lines? -/
  reading : Bool

/-- What happens to a daemon between its start and its stop. -/
inductive Daemon.Input where
  | line (text : String)
  /-- Nothing is read for some time, in milliseconds. -/
  | pause (ms : Nat)

/-- A run as it is seen from outside. -/
structure Daemon.Report where
  exitCode : Nat
  log : List String
  complaint : List String
  deriving DecidableEq, Repr

namespace Daemon

/-- Report the version of the backend. -/
def reportVersion (w : Client) : Client :=
  match w.perform .version with
  | (some (.text version), w) => w.say (.backendVersion version)
  | (_, w) => w

/-- Report a start that failed. -/
def reportStart (w : Client) : Client :=
  match w.perform .start with
  | (some (.failed e), w) => w.say (.autoConnectFailed e)
  | (_, w) => w

/-- Report the status. -/
def reportStatus (w : Client) : Client :=
  match w.perform .status with
  | (some (.text status), w) => w.say (.statusShown status)
  | (_, w) => w

/-- Start a daemon. -/
def start (config : Config) : Daemon :=
  let w := (Client.make config (.make Server.defaults 0 Backend.builtinVersion)).say .starting
  let (bridge, w) := (reportStart (reportVersion w)).activate
  ⟨w.settle, bridge, true⟩

/-- Show the pages that were asked for. -/
def showPages (d : Daemon) : Daemon :=
  let (pages, w) := d.client.takePages d.bridge
  { d with client := w.sayAll (pages.map .pageShown) }

/-- Send a trigger and let it have its effect. -/
def trigger (d : Daemon) (e : Trigger) : Daemon :=
  match d.client.offerTrigger d.bridge e with
  -- a full channel would be waited for, but it is empty again before the next line
  | (.closed, w) => { d with client := w.say .bridgeGone, reading := false }
  | (_, w) => { d with client := w.settle }.showPages

/-- Obey a line. -/
def line (d : Daemon) (text : String) : Daemon :=
  let text := Text.trim text
  if !d.reading || text = "" then d
  else if text = "status" then { d with client := reportStatus d.client }
  else match Trigger.parse text with
    | some e => d.trigger e
    | none => { d with client := d.client.say (.unknownTrigger text) }

/-- Let some time pass. -/
def elapse (d : Daemon) (ms : Nat) : Daemon := { d with client := d.client.sleep ms }

/-- Close the bridge. -/
def closeBridge (w : Client) (b : BridgeId) : Client :=
  ((w.deactivate b).runUntil fun w => !w.isActive b).say .bridgeDeactivated

/-- Tear down a connection that is up or on its way. -/
def hangUp (w : Client) : Client :=
  if w.session.state.isConnected || w.session.state.isTransitioning then
    match w.perform .disconnect with
    | (some (.failed e), w) => w.say (.shutdownFailed e)
    | (_, w) => w
  else w

/-- Stop the daemon: its client at the end. -/
def stop (d : Daemon) : Client :=
  (reportStatus (hangUp (closeBridge d.client d.bridge))).say .stopping

/-- The line that is read, if one is. -/
def Input.line? : Input → Option String
  | .line text => some text
  | .pause _ => none

/-- Obey a line, or let time pass. -/
def take (d : Daemon) : Input → Daemon
  | .line text => d.line text
  | .pause ms => d.elapse ms

/-- A run from start to stop. -/
def runInputs (config : Config) (inputs : List Input) : Client :=
  (inputs.foldl take (start config)).stop

/-- A run from start to stop in which the lines follow each other without a pause. -/
def runLines (config : Config) (lines : List String) : Client :=
  runInputs config (lines.map .line)

/-! ## Seen from outside -/

/-- The lines of a text. -/
def linesOf (s : String) : List String := (Text.splitAll '\n' s.toList).map String.ofList

/-- The complaint about a configuration file; every line of the cause is indented. -/
def configComplaint (path : String) (e : ConfigError) : List String :=
  linesOf ("Error: loading " ++ path) ++ ["", "Caused by:"] ++
    (linesOf e.message).map ("    " ++ ·)

/-- The complaint about a filter. -/
def filterComplaint : List String := ["Error: invalid log_level"]

/-- The configuration to run with, from the file that was named, if any. -/
def loadConfig : Option (String × FileContent) → Except (List String) Config
  | none => .ok .default
  | some (path, content) =>
    match Config.ofFile path content with
    | .ok config => .ok config
    | .error e => .error (configComplaint path e)

/-- The filter to run with: the one from the environment if it is one, else that of the
configuration. -/
def chooseFilter (environment : Option String) (config : Config) : Except (List String) LogFilter :=
  match environment.bind LogFilter.parse with
  | some filter => .ok filter
  | none =>
    match LogFilter.parse config.logLevel with
    | some filter => .ok filter
    | none => .error filterComplaint

/-- What a daemon runs with. -/
def setUp (file : Option (String × FileContent)) (environment : Option String) :
    Except (List String) (Config × LogFilter) :=
  match loadConfig file with
  | .error complaint => .error complaint
  | .ok config =>
    match chooseFilter environment config with
    | .error complaint => .error complaint
    | .ok filter => .ok (config, filter)

/-- A whole run. -/
def report (file : Option (String × FileContent)) (environment : Option String)
    (lines : List String) : Report :=
  match setUp file environment with
  | .error complaint => ⟨1, [], complaint⟩
  | .ok (config, filter) => ⟨0, filter.lines (runLines config lines).log.reverse, []⟩

end Daemon

end TunnelSession
