/-
  What passes between a client and its backend.

  DEALS.  A call starts (`called`), and its answer is made when its latency is over (`answered`,
  with the time and whether it is an error).  A call that is given up before that is never answered
  (`dropped`).

  LIST.  `deals` lists the deals of a run in order.  Like the trace it is read off the run: there is
  one function for every function of the client that calls the backend or goes on with a call, and
  what it lists are the very calls of `startCall` and `resumeCall` that a turn makes.
-/
import TunnelSession.Proofs.Run

namespace TunnelSession

/-- What passes between a client and its backend. -/
inductive Deal where
  | called (op : Operation)
  | answered (op : Operation) (now : Nat) (result : Except BackendError Unit)
  | dropped (op : Operation)

/-- Giving up a call; one whose answer was made already is no deal any more. -/
def Call.dropDeals {α : Type} : Call α → List Deal
  | .running ask _ _ => [.dropped ask.operation]
  | .held .. => []

namespace Client

variable {α : Type}

/-! ## Calls -/

/-- The answer of a call, if its latency is over. -/
def answerDeals (w : Client) (op : Operation) :
    Progress (Call α) (Except BackendError α) → List Deal
  | .waiting (.running ..) => []
  | .waiting (.held _ a) => [.answered op w.now (a.map fun _ => ())]
  | .done a => [.answered op w.now (a.map fun _ => ())]

/-- Starting a call. -/
def startDeals (w : Client) (t : TaskId) (ask : Ask α) : List Deal :=
  .called ask.operation :: w.answerDeals ask.operation (w.startCall t ask).2

/-- Going on with a call. -/
def resumeDeals (w : Client) (t : TaskId) : Call α → List Deal
  | .running ask due hold =>
    w.answerDeals ask.operation (w.resumeCall t (.running ask due hold)).2
  | .held .. => []

/-- Starting a look at the statistics. -/
def fetchDeals (w : Client) (t : TaskId) : List Deal :=
  if w.session.state.isConnected then w.startDeals t .stats else []

/-! ## Connects and disconnects -/

/-- The backend answered a connect: a tunnel that is up is looked at. -/
def dialedDeals (w : Client) (t : TaskId) : Except BackendError Server → List Deal
  | .ok server =>
    let w := w.update fun s =>
      { s with state := .connected, recents := s.recents.push server.id, server := some server }
    (w.raiseTunnel.say (.connected server)).fetchDeals t
  | .error _ => []

/-- Dialing, and what follows at once. -/
def dialDeals (w : Client) (t : TaskId) (state : ConnectionState) (ask : Ask Server) :
    List Deal :=
  let w := (w.update fun s => { s with state := state, stats := none }).stopPolling.lowerTunnel
  w.startDeals t ask ++
    match w.startCall t ask with
    | (_, .waiting _) => []
    | (w, .done answer) => w.dialedDeals t answer

/-- A connect that holds the connection. -/
def connectDeals (w : Client) (t : TaskId) : Target → List Deal
  | .server id => (w.say (.connecting id)).dialDeals t .connecting (.connect id)
  | .best => (w.say .quickConnecting).dialDeals t .connecting .quickConnect
  | .last =>
    match w.session.server with
    | some server =>
      (w.say (.connecting server.id)).dialDeals t .reconnecting (.connect server.id)
    | none => []

/-- Asking for a connect. -/
def askDeals (w : Client) (t : TaskId) (target : Target) (ticket : Nat) : List Deal :=
  if w.isVoid ticket then []
  else
    let w := { w with transition := w.transition.request t }
    if w.transition.isHeldBy t then w.connectDeals t target else []

/-- A disconnect that holds the connection. -/
def hangUpDeals (w : Client) (t : TaskId) : List Deal :=
  let w := (w.say .disconnecting).update fun s => { s with state := .disconnecting, stats := none }
  w.stopPolling.lowerTunnel.startDeals t .disconnect

/-- Asking for a disconnect that cancels nothing by itself. -/
def leaveDeals (w : Client) (t : TaskId) : List Deal :=
  let w := { w with transition := w.transition.request t }
  if w.transition.isHeldBy t then w.hangUpDeals t else []

/-- Going on with a connect or a disconnect; a void ticket gives up the call. -/
def lifecycleDeals (w : Client) (t : TaskId) : Lifecycle → List Deal
  | .queued target ticket =>
    if w.isVoid ticket then []
    else if w.transition.isHeldBy t then (w.delist t).connectDeals t target
    else []
  | .dialing ticket call =>
    if w.isVoid ticket then call.dropDeals
    else w.resumeDeals t call ++
      match w.resumeCall t call with
      | (_, .waiting _) => []
      | (w, .done answer) => (w.delist t).dialedDeals t answer
  | .sampling ticket _ call => if w.isVoid ticket then call.dropDeals else w.resumeDeals t call
  | .leaving => if w.transition.isHeldBy t then w.hangUpDeals t else []
  | .hangingUp call => w.resumeDeals t call

/-! ## Commands -/

/-- A change that holds the settings. -/
def changeDeals (w : Client) (t : TaskId) : Write → List Deal
  | .patch p => w.startDeals t (.save (p.apply w.session.settings))
  | .toggle flag => w.startDeals t (.toggle flag !w.session.settings.flag flag)

/-- Asking for a change. -/
def writeDeals (w : Client) (t : TaskId) (write : Write) : List Deal :=
  let w := { w with writes := w.writes.request t }
  if w.writes.isHeldBy t then w.changeDeals t write else []

/-- Going on with a change. -/
def writingDeals (w : Client) (t : TaskId) : Writing → List Deal
  | .queued write => if w.writes.isHeldBy t then w.changeDeals t write else []
  | .saving _ call => w.resumeDeals t call
  | .toggling _ _ call => w.resumeDeals t call

/-- What a start asks for when the catalog is there. -/
def startedDeals (t : TaskId)
    (r : Client × Progress (Call (List Server)) (Except BackendError (List Server))) :
    List Deal :=
  match r with
  | (_, .waiting _) => []
  | (w, .done answer) =>
    let w := (w.commitCatalog answer).1
    if w.session.settings.autoConnect then (w.say .autoConnecting).askDeals t .best w.epoch else []

/-- A command, from where it stands. -/
def pointDeals (w : Client) (t : TaskId) : Point → List Deal
  | .fresh (.connect id) => w.askDeals t (.server id) w.epoch
  | .fresh .quickConnect => w.askDeals t .best w.epoch
  | .fresh .reconnect => w.askDeals t .last w.epoch
  | .fresh .disconnect => w.cancelConnects.leaveDeals t
  | .fresh .start => w.startDeals t .servers ++ startedDeals t (w.startCall t .servers)
  | .fresh (.write p) => w.writeDeals t p
  | .fresh .fetchServers => w.startDeals t .servers
  | .fresh .fetchStats => w.fetchDeals t
  | .fresh .version => w.startDeals t .version
  | .fresh _ => []
  | .lifecycle l => w.lifecycleDeals t l
  | .starting l => w.lifecycleDeals t l
  | .loading true call => w.resumeDeals t call ++ startedDeals t (w.resumeCall t call)
  | .loading false call => w.resumeDeals t call
  | .writing p => w.writingDeals t p
  | .sampling call => w.resumeDeals t call
  | .asking call => w.resumeDeals t call

/-! ## Pollers and workers -/

/-- The looks of a poller that are due. -/
def looksDeals (t : TaskId) : (looks : Nat) → Poller → Client → List Deal
  | looks, p, w =>
    if p.seen ≠ w.version ∧ w.published.isConnected = false then []
    else
      let p := { p with seen := w.version }
      match looks with
      | 0 => []
      | looks + 1 =>
        if w.now < p.due then []
        else
          let p := { p with due := nextLook p.due p.period w.now }
          w.fetchDeals t ++
            match w.fetchStats t with
            | (_, .waiting _) => []
            | (w, .done kept) => looksDeals t looks { p with call := none } (w.reportLook kept)

/-- A poller; told to stop, it gives up its look. -/
def pollerDeals (w : Client) (t : TaskId) (p : Poller) : List Deal :=
  let looks (w : Client) (p : Poller) : Nat := w.now + 1 - p.due
  if p.period = 0 then []
  else if p.cancelled then p.call.elim [] Call.dropDeals
  else
    match p.call with
    | none => looksDeals t (looks w p) p w
    | some call =>
      w.resumeDeals t call ++
        match w.resumeStats t call with
        | (_, .waiting _) => []
        | (w, .done kept) =>
          let p := { p with call := none }
          looksDeals t (looks w p) p (w.reportLook kept)

/-- Beginning a job. -/
def jobDeals (w : Client) (t : TaskId) (job : Job) : List Deal :=
  match job.request with
  | .quickConnect => w.askDeals t .best job.ticket
  | .connect id => w.askDeals t (.server id) job.ticket
  | .disconnect => w.leaveDeals t

/-- Carrying out jobs until one has to wait or none is left. -/
def jobsDeals (t : TaskId) (b : BridgeId) : (jobs : Nat) → Client → List Deal
  | jobs, w =>
    match w.bridge? b with
    | none => []
    | some bridge =>
      match jobs, bridge.jobs with
      | jobs + 1, job :: rest =>
        let w := w.setBridge b fun r => { r with jobs := rest }
        w.jobDeals t job ++
          match w.beginJob t job with
          | (_, .waiting _) => []
          | (w, .done s) => jobsDeals t b jobs (w.reportJob job.request s)
      | _, _ => []

/-- A worker. -/
def workerDeals (w : Client) (t : TaskId) (b : BridgeId) : Option (Job × Lifecycle) → List Deal
  | none => jobsDeals t b (w.jobCount b) w
  | some (job, l) =>
    w.lifecycleDeals t l ++
      match w.resumeLifecycle t l with
      | (_, .waiting _) => []
      | (w, .done s) => jobsDeals t b (w.jobCount b) (w.reportJob job.request s)

/-! ## Runs -/

/-- The deals of a turn. -/
def turnDeals (w : Client) (t : TaskId) : List Deal :=
  match w.task? t with
  | some (.command p) => w.pointDeals t p
  | some (.poller p) => w.pollerDeals t p
  | some (.worker b current) => w.workerDeals t b current
  | _ => []

/-- The deals of an event. -/
def dealsOf (w : Client) : Event → List Deal
  | .call c => (w.spawn (.command (.fresh c))).2.turnDeals w.tasks.length
  | .poll t => { w with ready := w.ready.erase t }.turnDeals t
  | _ => []

/-- The deals of a run, in order. -/
def deals (w : Client) : List Event → List Deal
  | [] => []
  | e :: events => w.dealsOf e ++ (w.happen e).deals events

/-- The deals of a run that goes on by an event are those of the run, and then those of the
event. -/
theorem deals_snoc (w : Client) (events : List Event) (e : Event) :
    w.deals (events ++ [e]) = w.deals events ++ (w.after events).dealsOf e := by
  induction events generalizing w with
  | nil => exact List.append_nil _
  | cons e' events ih =>
    rw [List.cons_append, deals, deals, ih, after_cons, List.append_assoc]

end Client

end TunnelSession
