/-
  Statistics.

  ONE LOOK.  `fetchStats` asks the backend while the connection is up, and keeps the answer if it
  is still up then.

  THE POLLER.  A task of its own that looks once a period.  It ends when it is told to stop, which
  it checks first whenever it runs, or when a publication says that the connection is not up.  A
  look that starts more than `slack` late moves the next one to a period from now; otherwise the
  next one is due a period after this one was.
-/
import TunnelSession.Client.Calls

namespace TunnelSession.Client

/-- What becomes of an answer: kept if the connection is up. -/
def commitStats (w : Client) : Except BackendError Stats → Client × Bool
  | .ok stats =>
    if w.session.state.isConnected then (w.update fun s => { s with stats := some stats }, true)
    else (w, false)
  | .error e => (w.say (.statsFailed e), false)

/-- Commit the answer of a look that is through. -/
def settleStats (r : Client × Progress (Call Stats) (Except BackendError Stats)) :
    Client × Progress (Call Stats) Bool :=
  match r with
  | (w, .waiting call) => (w, .waiting call)
  | (w, .done answer) => ((w.commitStats answer).1, .done (w.commitStats answer).2)

/-- Start a look.  The result says whether statistics were kept. -/
def fetchStats (w : Client) (t : TaskId) : Client × Progress (Call Stats) Bool :=
  if w.session.state.isConnected then settleStats (w.startCall t .stats) else (w, .done false)

/-- Go on with a look. -/
def resumeStats (w : Client) (t : TaskId) (call : Call Stats) :
    Client × Progress (Call Stats) Bool :=
  settleStats (w.resumeCall t call)

/-! ## Starting and stopping the poller -/

/-- Tell a poller to stop. -/
def cancelPoller (w : Client) (t : TaskId) : Client :=
  match w.task? t with
  | some (.poller p) => (w.setTask t (.poller { p with cancelled := true })).wake t
  | _ => w

/-- Start a poller; one that was started before is told to stop. -/
def startPolling (w : Client) (period : Nat) : Client :=
  let old := w.poller
  let (t, w) := w.spawn (.poller ⟨false, w.version, period, w.now + period, none⟩)
  let w := { w.wake t with poller := some t }
  let w := old.elim w w.cancelPoller
  w.say (.pollingStarted period)

/-- Tell the poller to stop, if there is one. -/
def stopPolling (w : Client) : Client :=
  match w.poller with
  | some t => ({ w with poller := none }.cancelPoller t).say .pollingStopped
  | none => w

/-- Is there a poller, and does it run? -/
def isPolling (w : Client) : Bool := w.poller.any fun t => !w.hasEnded t

/-! ## The poller -/

/-- How late a look may start before it moves the next one. -/
def slack : Nat := 5

/-- When the look after one that was due is due. -/
def nextLook (due period now : Nat) : Nat :=
  if due + slack < now then now + period else due + period

/-- Report a look that kept statistics. -/
def reportLook (w : Client) (kept : Bool) : Client := if kept then w.say .polled else w

/-- Between two looks: end, wait, or look.  `looks` bounds the looks that are due by now. -/
def pollerTurn (t : TaskId) : (looks : Nat) → Poller → Client → Client
  | looks, p, w =>
    -- publications are looked at before the clock; one with the connection up changes nothing
    if p.seen ≠ w.version ∧ w.published.isConnected = false then
      (w.disarm t).say .pollingEnded |>.setTask t (.ended .finished)
    else
      let p := { p with seen := w.version }
      match looks with
      | 0 => (w.arm p.due t).setTask t (.poller p)
      | looks + 1 =>
        if w.now < p.due then (w.arm p.due t).setTask t (.poller p)
        else
          -- the next look is settled when this one starts, however long it takes
          let p := { p with due := nextLook p.due p.period w.now }
          match w.fetchStats t with
          | (w, .waiting call) => w.setTask t (.poller { p with call := some call })
          | (w, .done kept) => pollerTurn t looks { p with call := none } (w.reportLook kept)

/-- Run a poller. -/
def runPoller (w : Client) (t : TaskId) (p : Poller) : Client :=
  let looks (w : Client) (p : Poller) : Nat := w.now + 1 - p.due
  if p.period = 0 then w.setTask t (.ended .finished)
  else if p.cancelled then (w.disarm t).say .pollingEnded |>.setTask t (.ended .finished)
  else
    match p.call with
    | none => pollerTurn t (looks w p) p w
    | some call =>
      match w.resumeStats t call with
      | (w, .waiting call) => w.setTask t (.poller { p with call := some call })
      | (w, .done kept) =>
        let p := { p with call := none }
        pollerTurn t (looks w p) p (w.reportLook kept)

end TunnelSession.Client
