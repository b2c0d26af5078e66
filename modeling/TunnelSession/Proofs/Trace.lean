/-
  What a run does for the connection.

  REQUESTS.  A request is a connect or a disconnect that somebody asked for: a task that calls the
  client, or a trigger that the receiver of a bridge took.  A source makes its requests one after
  the other, and they are worked off in that order.

  ACTS.  `ask` is a connect taking its ticket, `leave` a disconnect being asked for.  A `leg` is
  one stretch of work on a request: from where it stood (nowhere, if it begins) to where it has to
  wait again or to what it comes to, with the session and the backend before and after.

  TRACE.  `trace` lists the acts of a run in order.  It is read off the run: every leg is the very
  call of `requestConnect`, `requestDisconnect`, `beginJob` or `resumeLifecycle` that a poll makes.
-/
import TunnelSession.Proofs.Run

namespace TunnelSession

/-- Where requests come from. -/
inductive Source where
  | call (t : TaskId)
  | bridge (b : BridgeId)
  deriving DecidableEq

/-- A stretch of work on a request. -/
structure Leg where
  source : Source
  /-- Where the request stood; nowhere if it begins. -/
  start : Option Lifecycle
  session : Session
  backend : Backend
  session' : Session
  backend' : Backend
  result : Progress Lifecycle Settled

/-- What is done for the connection. -/
inductive Act where
  | ask (s : Source) (target : Target)
  | leave (s : Source)
  | leg (l : Leg)

namespace Client

/-- The stretch of work from `w` to where it got. -/
def leg (w : Client) (s : Source) (start : Option Lifecycle)
    (r : Client × Progress Lifecycle Settled) : Act :=
  .leg ⟨s, start, w.session, w.backend, r.1.session, r.1.backend, r.2⟩

/-! ## Commands -/

/-- A task asks for a connect. -/
def askActs (w : Client) (t : TaskId) (target : Target) : List Act :=
  [.ask (.call t) target, w.leg (.call t) none (w.requestConnect t target w.epoch)]

/-- A start asks for a connect when the catalog is there, if the settings say so. -/
def startActs (t : TaskId)
    (r : Client × Progress (Call (List Server)) (Except BackendError (List Server))) : List Act :=
  match r with
  | (_, .waiting _) => []
  | (w, .done answer) =>
    let w := (w.commitCatalog answer).1
    if w.session.settings.autoConnect then (w.say .autoConnecting).askActs t .best else []

/-- The acts of a command. -/
def pointActs (w : Client) (t : TaskId) : Point → List Act
  | .fresh (.connect id) => w.askActs t (.server id)
  | .fresh .quickConnect => w.askActs t .best
  | .fresh .reconnect => w.askActs t .last
  | .fresh .disconnect => [.leave (.call t), w.leg (.call t) none (w.requestDisconnect t)]
  | .fresh .start => startActs t (w.startCall t .servers)
  | .loading true call => startActs t (w.resumeCall t call)
  | .lifecycle l => [w.leg (.call t) (some l) (w.resumeLifecycle t l)]
  | .starting l => [w.leg (.call t) (some l) (w.resumeLifecycle t l)]
  | _ => []

/-! ## Bridges -/

/-- The acts of taking a trigger. -/
def triggerActs (b : BridgeId) : Trigger → List Act
  | .navigate _ => []
  | .quickConnect => [.ask (.bridge b) .best]
  | .connect id => [.ask (.bridge b) (.server id)]
  | .disconnect => [.leave (.bridge b)]

/-- The acts of a receiver. -/
def receiverActs (w : Client) (b : BridgeId) : List Act :=
  match w.bridge? b with
  | none => []
  | some bridge =>
    if bridge.cancelled then [] else bridge.triggers.queue.flatMap (triggerActs b)

/-- The acts of carrying out jobs until one has to wait or none is left. -/
def jobsActs (t : TaskId) (b : BridgeId) : (jobs : Nat) → Client → List Act
  | jobs, w =>
    match w.bridge? b with
    | none => []
    | some bridge =>
      match jobs, bridge.jobs with
      | jobs + 1, job :: rest =>
        let w := w.setBridge b fun r => { r with jobs := rest }
        w.leg (.bridge b) none (w.beginJob t job) ::
          match w.beginJob t job with
          | (_, .waiting _) => []
          | (w, .done s) => jobsActs t b jobs (w.reportJob job.request s)
      | _, _ => []

/-- The acts of a worker. -/
def workerActs (w : Client) (t : TaskId) (b : BridgeId) : Option (Job × Lifecycle) → List Act
  | none => jobsActs t b (w.jobCount b) w
  | some (job, l) =>
    w.leg (.bridge b) (some l) (w.resumeLifecycle t l) ::
      match w.resumeLifecycle t l with
      | (_, .waiting _) => []
      | (w, .done s) => jobsActs t b (w.jobCount b) (w.reportJob job.request s)

/-! ## Runs -/

/-- The acts of a turn. -/
def turnActs (w : Client) (t : TaskId) : List Act :=
  match w.task? t with
  | some (.command p) => w.pointActs t p
  | some (.receiver b) => w.receiverActs b
  | some (.worker b current) => w.workerActs t b current
  | _ => []

/-- The acts of an event. -/
def acts (w : Client) : Event → List Act
  | .call c => (w.spawn (.command (.fresh c))).2.turnActs w.tasks.length
  | .poll t => { w with ready := w.ready.erase t }.turnActs t
  | _ => []

/-- The acts of a run, in order. -/
def trace (w : Client) : List Event → List Act
  | [] => []
  | e :: events => w.acts e ++ (w.happen e).trace events

/-- The acts of a run are those of its beginning, and then those of the rest. -/
theorem trace_append (w : Client) (events more : List Event) :
    w.trace (events ++ more) = w.trace events ++ (w.after events).trace more := by
  induction events generalizing w with
  | nil => rfl
  | cons e events ih =>
    rw [List.cons_append, trace, trace, ih, after_cons, List.append_assoc]

end Client

end TunnelSession
