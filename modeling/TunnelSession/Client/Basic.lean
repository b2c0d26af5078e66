/-
  A client in flight.

  STATE.  `Client` holds everything that its tasks share: the session and the last publication of
  its state, the kill switch, the backend, the two locks, the count of disconnects (`epoch`), the
  tasks themselves and who is ready to run, the timers and the log.

  WAKING.  A task that may go on is put at the end of `ready`, once.  Whatever a task can wait for
  wakes it: a lock that is handed over, a void ticket, a publication, a timer, a trigger.

  This module has the steps that all tasks are made of.
-/
import TunnelSession.Channel
import TunnelSession.Client.Task
import TunnelSession.Config
import TunnelSession.KillSwitch

namespace TunnelSession

/-- A bridge: the triggers that wait, the jobs handed to its worker, and the pages to be shown. -/
structure Bridge where
  triggers : Channel Trigger
  /-- Can triggers still be sent? -/
  hasSender : Bool
  cancelled : Bool
  receiver : TaskId
  worker : TaskId
  jobs : List Job
  /-- Can jobs still come? -/
  hasReceiver : Bool
  pages : List String
  /-- Does anybody look at the pages? -/
  hasPages : Bool

/-- A client in flight. -/
structure Client where
  config : Config
  now : Nat
  session : Session
  published : ConnectionState
  /-- How often the state was published. -/
  version : Nat
  killSwitch : KillSwitch
  backend : Backend
  transition : Lock
  writes : Lock
  /-- How many disconnects there were. -/
  epoch : Nat
  /-- The connects that wait and that a disconnect wakes, first come first. -/
  cancellable : List TaskId
  /-- The poller that was started last and not stopped. -/
  poller : Option TaskId
  bridges : List Bridge
  tasks : List Task
  ready : List TaskId
  timers : List (Nat × TaskId)
  /-- The log, the latest notice first. -/
  log : List Notice

namespace Client

/-- A client before its first command. -/
def make (config : Config) (backend : Backend) : Client where
  config := config
  now := 0
  session := .make config.settings
  published := .disconnected
  version := 0
  killSwitch := .make config.settings.killSwitch
  backend := backend
  transition := .free
  writes := .free
  epoch := 0
  cancellable := []
  poller := none
  bridges := []
  tasks := []
  ready := []
  timers := []
  log := []

/-- A client of a valid configuration. -/
def create (config : Config) (backend : Backend) : Except SessionError Client :=
  match config.validate with
  | .ok () => .ok (make config backend)
  | .error e => .error (.config e)

/-! ## Reports -/

/-- Report. -/
def say (w : Client) (n : Notice) : Client := { w with log := n :: w.log }

/-- Report several notices, in order. -/
def sayAll (w : Client) (ns : List Notice) : Client := { w with log := ns.reverse ++ w.log }

/-! ## Tasks and timers -/

/-- The task of a number. -/
def task? (w : Client) (t : TaskId) : Option Task := w.tasks[t]?

/-- Has the task ended, or was there none? -/
def hasEnded (w : Client) (t : TaskId) : Bool :=
  match w.task? t with
  | some task => task.isEnded
  | none => true

/-- Replace a task. -/
def setTask (w : Client) (t : TaskId) (task : Task) : Client :=
  { w with tasks := w.tasks.set t task }

/-- Let a task run when its turn comes. -/
def wake (w : Client) (t : TaskId) : Client :=
  if w.hasEnded t || w.ready.contains t then w else { w with ready := w.ready ++ [t] }

/-- Let several tasks run, in order. -/
def wakeAll (w : Client) (ts : List TaskId) : Client := ts.foldl wake w

/-- A new task, which does not run by itself yet. -/
def spawn (w : Client) (task : Task) : TaskId × Client :=
  (w.tasks.length, { w with tasks := w.tasks ++ [task] })

/-- Wake a task at a time, unless that is so already. -/
def arm (w : Client) (due : Nat) (t : TaskId) : Client :=
  if w.timers.contains (due, t) then w else { w with timers := w.timers ++ [(due, t)] }

/-- Take back the timers of a task. -/
def disarm (w : Client) (t : TaskId) : Client := { w with timers := w.timers.filter (·.2 != t) }

/-! ## The session -/

/-- Is the task a poller that waits for its next look? -/
def watches : Task → Bool
  | .poller p => p.call.isNone
  | _ => false

/-- The numbers of the tasks that a publication wakes. -/
def watchers (w : Client) : List TaskId :=
  (w.tasks.zipIdx.filter fun t => watches t.1).map (·.2)

/-- Change the session, and publish its state if that changed. -/
def update (w : Client) (f : Session → Session) : Client :=
  let session := f w.session
  -- a change of anything but the state is not published
  if session.state = w.published then { w with session := session }
  else
    { w with session := session, published := session.state, version := w.version + 1 }.wakeAll
      w.watchers

/-- Turn the kill switch. -/
def setKillSwitch (w : Client) (on : Bool) : Client :=
  { w with killSwitch := w.killSwitch.setEnabled on }.sayAll (w.killSwitch.setEnabledNotices on)

/-- Tell the kill switch that the tunnel is up. -/
def raiseTunnel (w : Client) : Client :=
  { w with killSwitch := w.killSwitch.tunnelRaised }.say .trafficAllowed

/-- Tell the kill switch that the tunnel is down. -/
def lowerTunnel (w : Client) : Client :=
  { w with killSwitch := w.killSwitch.tunnelLowered }.sayAll w.killSwitch.tunnelLoweredNotices

/-! ## Locks -/

/-- Give back the connection, and wake who holds it now. -/
def releaseTransition (w : Client) : Client :=
  let lock := w.transition.release
  { w with transition := lock }.wakeAll lock.holder.toList

/-- Give back the settings, and wake who holds them now. -/
def releaseWrites (w : Client) : Client :=
  let lock := w.writes.release
  { w with writes := lock }.wakeAll lock.holder.toList

/-- Give up the connection, or the place in line for it. -/
def withdrawTransition (w : Client) (t : TaskId) : Client :=
  if w.transition.isHeldBy t then w.releaseTransition
  else { w with transition := { w.transition with line := w.transition.line.filter (· != t) } }

/-- Give up the settings, or the place in line for them. -/
def withdrawWrites (w : Client) (t : TaskId) : Client :=
  if w.writes.isHeldBy t then w.releaseWrites
  else { w with writes := { w.writes with line := w.writes.line.filter (· != t) } }

/-! ## Tickets -/

/-- Is the ticket void? -/
def isVoid (w : Client) (ticket : Nat) : Bool := decide (ticket < w.epoch)

/-- Make every ticket void that was given so far, and wake those who wait with one. -/
def cancelConnects (w : Client) : Client :=
  { w with epoch := w.epoch + 1, cancellable := [] }.wakeAll w.cancellable

/-- Wait with a ticket. -/
def enlist (w : Client) (t : TaskId) : Client := { w with cancellable := w.cancellable ++ [t] }

/-- Wait with a ticket no longer. -/
def delist (w : Client) (t : TaskId) : Client :=
  { w with cancellable := w.cancellable.filter (· != t) }

end Client

end TunnelSession
