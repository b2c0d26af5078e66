/-
  Runs of a client.

  EVENTS.  An `Event` is what can happen to a client from outside or from its scheduler: a command
  is given, a task is polled, time passes, the backend is scripted, the poller is started or
  stopped by hand, and everything that can be done with a bridge.  Nobody drops a command.

  RUNS.  `after` lets a list of events happen.  A run is more permissive than any scheduler: a
  task may be polled whether or not it was woken, in any order, and time may pass between any two
  events.

  LIMIT.  A poll runs a task up to where the program itself waits: for a lock, for the backend, for
  a trigger or for a timer.  An executor that makes a task yield at another place, because it did
  much in one poll, is not modelled.  So what is shown of every run holds between two polls of every
  real one in which no task is made to yield.
-/
import TunnelSession.Client.Schedule

namespace TunnelSession

/-- What can happen to a client. -/
inductive Event where
  /-- A task calls the client: the command runs at once, up to where it has to wait. -/
  | call (c : Command)
  /-- A command is started in the background; it first runs when it is polled. -/
  | go (c : Command)
  | poll (t : TaskId)
  | pass (ms : Nat)
  | fail (op : Operation) (e : BackendError)
  | pin (op : Operation) (value : Bool)
  | startPolling (period : Nat)
  | stopPolling
  | openBridge
  | deactivate (b : BridgeId)
  | dropSender (b : BridgeId)
  | dropPages (b : BridgeId)
  | takePages (b : BridgeId)
  | send (b : BridgeId) (e : Trigger)

/-- Does nobody have a turn? -/
def Event.IsQuiet : Event → Prop
  | .call _ | .poll _ => False
  | _ => True

namespace Client

/-- Give a task a turn, whether it was woken or not. -/
def poll (w : Client) (t : TaskId) : Client := { w with ready := w.ready.erase t }.run t

/-- Give a command and run it at once, up to where it has to wait. -/
def call (w : Client) (c : Command) : Client :=
  let (t, w) := w.spawn (.command (.fresh c))
  w.run t

/-- Let an event happen. -/
def happen (w : Client) : Event → Client
  | .call c => w.call c
  | .go c => (w.go c).2
  | .poll t => w.poll t
  | .pass ms => w.tickTo (w.now + ms)
  | .fail op e => { w with backend := w.backend.failNext op e }
  | .pin op value => { w with backend := w.backend.pin op value }
  | .startPolling period => w.startPolling period
  | .stopPolling => w.stopPolling
  | .openBridge => w.activate.2
  | .deactivate b => w.deactivate b
  | .dropSender b => w.dropSender b
  | .dropPages b => w.dropPages b
  | .takePages b => (w.takePages b).2
  | .send b e => (w.offerTrigger b e).2

/-- Let events happen, one after the other. -/
def after (w : Client) (events : List Event) : Client := events.foldl happen w

/-- A client over a simulated backend that was not called yet. -/
def fresh (config : Config) (servers : List Server) (latency : Nat) (version : String) : Client :=
  .make config (.make servers latency version)

@[simp] theorem after_nil (w : Client) : w.after [] = w := rfl

@[simp] theorem after_cons (w : Client) (e : Event) (events : List Event) :
    w.after (e :: events) = (w.happen e).after events := rfl

theorem after_append (w : Client) (events more : List Event) :
    w.after (events ++ more) = (w.after events).after more := by
  simp [after]

end Client

end TunnelSession
