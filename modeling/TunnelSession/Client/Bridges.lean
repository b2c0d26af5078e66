/-
  Bridges from triggers to the connection.

  TWO TASKS.  The receiver takes triggers in their order: pages go to whoever shows them,
  everything else becomes a job.  The worker carries out one job at a time.  A connect gets its
  ticket, and a disconnect makes tickets void, when the receiver takes the trigger; so a
  disconnect supersedes jobs that the worker has not come to yet.

  ENDING.  A receiver that is told to end looks at that before the next trigger; without a sender
  it ends when no trigger is left.  The worker carries out what it was handed, and then ends.
-/
import TunnelSession.Client.Lifecycle

namespace TunnelSession.Client

/-- The bridge of a number. -/
def bridge? (w : Client) (b : BridgeId) : Option Bridge := w.bridges[b]?

/-- Change a bridge. -/
def setBridge (w : Client) (b : BridgeId) (f : Bridge → Bridge) : Client :=
  { w with bridges := w.bridges.modify b f }

/-- A new bridge, with its two tasks ready to run. -/
def activate (w : Client) : BridgeId × Client :=
  let b := w.bridges.length
  let (worker, w) := w.spawn (.worker b none)
  let w := w.wake worker
  let (receiver, w) := w.spawn (.receiver b)
  let w := w.wake receiver
  let bridge : Bridge :=
    ⟨.make w.config.triggerCapacity.toNat, true, false, receiver, worker, [], true, [], true⟩
  (b, { w with bridges := w.bridges ++ [bridge] }.say .bridgeActivated)

/-- Tell the receiver of a bridge to end. -/
def deactivate (w : Client) (b : BridgeId) : Client :=
  match w.bridge? b with
  | some bridge => (w.setBridge b fun r => { r with cancelled := true }).wake bridge.receiver
  | none => w

/-- Does the receiver of a bridge run? -/
def isActive (w : Client) (b : BridgeId) : Bool :=
  (w.bridge? b).any fun bridge => !w.hasEnded bridge.receiver

/-- Drop the sender of a bridge. -/
def dropSender (w : Client) (b : BridgeId) : Client :=
  match w.bridge? b with
  | some bridge => (w.setBridge b fun r => { r with hasSender := false }).wake bridge.receiver
  | none => w

/-- Stop looking at the pages of a bridge. -/
def dropPages (w : Client) (b : BridgeId) : Client :=
  w.setBridge b fun r => { r with pages := [], hasPages := false }

/-- Take the pages that were asked for so far. -/
def takePages (w : Client) (b : BridgeId) : List String × Client :=
  (((w.bridge? b).map (·.pages)).getD [], w.setBridge b fun r => { r with pages := [] })

/-- Send a trigger without waiting. -/
def offerTrigger (w : Client) (b : BridgeId) (e : Trigger) : Channel.Offer × Client :=
  match w.bridge? b with
  | some bridge =>
    match bridge.triggers.offer e with
    | (.sent, triggers) =>
      (.sent, (w.setBridge b fun r => { r with triggers := triggers }).wake bridge.receiver)
    | (refused, _) => (refused, w)
  | none => (.closed, w)

/-! ## The receiver -/

/-- Wake the worker of a bridge if it waits for jobs; while it carries one out, only that job's own
waits wake it. -/
def wakeWorker (w : Client) (bridge : Bridge) : Client :=
  match w.task? bridge.worker with
  | some (.worker _ none) => w.wake bridge.worker
  | _ => w

/-- Hand a job to the worker. -/
def handOver (w : Client) (b : BridgeId) (bridge : Bridge) (job : Job) : Client :=
  (w.setBridge b fun r => { r with jobs := r.jobs ++ [job] }).wakeWorker bridge

/-- Take a trigger. -/
def receive (w : Client) (b : BridgeId) (bridge : Bridge) (e : Trigger) : Client :=
  let w := w.say (.triggered e)
  match e with
  | .navigate path =>
    if bridge.hasPages then w.setBridge b fun r => { r with pages := r.pages ++ [path] }
    else w.say .pageDropped
  | .quickConnect => w.handOver b bridge ⟨.quickConnect, w.epoch⟩
  | .connect id => w.handOver b bridge ⟨.connect id, w.epoch⟩
  | .disconnect => w.cancelConnects.handOver b bridge ⟨.disconnect, w.epoch⟩

/-- The receiver ends: no trigger can be sent any more, and no job will come. -/
def endReceiver (w : Client) (t : TaskId) (b : BridgeId) (bridge : Bridge) : Client :=
  let w := w.setBridge b fun r =>
    { r with triggers := { r.triggers.close with queue := [] }, hasReceiver := false }
  (w.wakeWorker bridge).setTask t (.ended .finished)

/-- Run a receiver. -/
def runReceiver (w : Client) (t : TaskId) (b : BridgeId) : Client :=
  match w.bridge? b with
  | none => w.setTask t (.ended .finished)
  | some bridge =>
    if bridge.cancelled then w.endReceiver t b bridge
    else
      -- all that wait are taken in one turn, before the worker gets to the first job
      let w := w.setBridge b fun r => { r with triggers := { r.triggers with queue := [] } }
      let w := bridge.triggers.queue.foldl (fun w e => w.receive b bridge e) w
      if bridge.hasSender then w else (w.say .triggersClosed).endReceiver t b bridge

/-! ## The worker -/

/-- Report what a job came to. -/
def reportJob (w : Client) (r : Request) : Settled → Client
  | .ok _ => w
  | .error .cancelled => w.say (.requestCancelled r)
  | .error e => w.say (.requestFailed r e)

/-- Begin a job. -/
def beginJob (w : Client) (t : TaskId) (job : Job) : Client × Progress Lifecycle Settled :=
  match job.request with
  | .quickConnect => w.requestConnect t .best job.ticket
  | .connect id => w.requestConnect t (.server id) job.ticket
  | .disconnect => w.queueDisconnect t

/-- Carry out jobs until one has to wait or none is left; `jobs` bounds those that are left. -/
def carryOut (t : TaskId) (b : BridgeId) : (jobs : Nat) → Client → Client
  | jobs, w =>
    match w.bridge? b with
    | none => w.setTask t (.ended .finished)
    | some bridge =>
      match jobs, bridge.jobs with
      | jobs + 1, job :: rest =>
        let w := w.setBridge b fun r => { r with jobs := rest }
        match w.beginJob t job with
        | (w, .waiting l) => w.setTask t (.worker b (some (job, l)))
        | (w, .done s) => carryOut t b jobs (w.reportJob job.request s)
      | _, _ =>
        if bridge.hasReceiver then w.setTask t (.worker b none) else w.setTask t (.ended .finished)

/-- How many jobs wait for a worker. -/
def jobCount (w : Client) (b : BridgeId) : Nat := ((w.bridge? b).map (·.jobs.length)).getD 0

/-- Run a worker. -/
def runWorker (w : Client) (t : TaskId) (b : BridgeId) : Option (Job × Lifecycle) → Client
  | none => carryOut t b (w.jobCount b) w
  | some (job, l) =>
    match w.resumeLifecycle t l with
    | (w, .waiting l) => w.setTask t (.worker b (some (job, l)))
    | (w, .done s) => carryOut t b (w.jobCount b) (w.reportJob job.request s)

end TunnelSession.Client
