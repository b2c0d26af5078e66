/-
  Running a client.

  TURNS.  `run` gives a task its turn.  `settle` gives turns in the order of `ready` until nobody
  is ready.  Only then does time pass: `tick` moves the clock to the next timer and wakes the
  tasks whose timers are due, in the order they were set.

  BOUNDS.  `settle` and `runUntil` take fuel from the client itself: within an instant every live
  task, waiting trigger and waiting job accounts for a bounded number of turns (`budget`), and a
  request is through after the calls before it (`horizon`).
-/
import TunnelSession.Client.Bridges
import TunnelSession.Client.Commands

namespace TunnelSession.Client

/-! ## Turns -/

/-- Give a task its turn. -/
def run (w : Client) (t : TaskId) : Client :=
  match w.task? t with
  | some (.command p) => w.runCommand t p
  | some (.poller p) => w.runPoller t p
  | some (.receiver b) => w.runReceiver t b
  | some (.worker b current) => w.runWorker t b current
  | some (.ended _) => w
  | none => w

/-- The next turn. -/
def turn (w : Client) : Client :=
  match w.ready with
  | [] => w
  | t :: rest => { w with ready := rest }.run t

/-- How many tasks have not ended, triggers wait and jobs wait. -/
def load (w : Client) : Nat :=
  (w.tasks.filter fun t => !t.isEnded).length +
    (w.bridges.map fun b => b.triggers.queue.length + b.jobs.length).foldr (· + ·) 0

/-- More turns than can follow each other within an instant. -/
def budget (w : Client) : Nat := 64 * (w.load + 1)

/-- Turns until nobody is ready. -/
def settleWith : (turns : Nat) → Client → Client
  | 0, w => w
  | turns + 1, w => if w.ready.isEmpty then w else settleWith turns w.turn

/-- Turns until nobody is ready. -/
def settle (w : Client) : Client := settleWith w.budget w

/-! ## Time -/

/-- When the next timer is due. -/
def nextDue (w : Client) : Option Nat := (w.timers.map (·.1)).min?

/-- Move the clock to a time, and wake those whose timers are due. -/
def tickTo (w : Client) (now : Nat) : Client :=
  let due := (w.timers.filter (·.1 ≤ now)).map (·.2)
  { w with now := now, timers := w.timers.filter fun t => !decide (t.1 ≤ now) }.wakeAll due

/-- Let everything happen up to a time. -/
def runTo : (ticks : Nat) → (time : Nat) → Client → Client
  | 0, _, w => w
  | ticks + 1, time, w =>
    match w.nextDue with
    | some due =>
      if due ≤ time then runTo ticks time (w.tickTo due).settle else { w with now := time }
    | none => { w with now := time }

/-- Let some time pass. -/
def sleep (w : Client) (ms : Nat) : Client :=
  let time := w.now + ms
  let w := runTo (ms + 1) time w.settle
  { w with now := time }

/-- How far off the end of everything is that was begun: what the calls under way still take, what
later answers are held back for, and the latency of the calls that are to come, of which nobody
makes more than four. -/
def horizon (w : Client) : Nat :=
  (w.tasks.map (·.rest w.now)).foldr (· + ·) 0 +
    (Operation.all.flatMap w.backend.holds.get).foldr (· + ·) 0 +
    (w.load + 1) * (4 * (w.backend.latency + 1))

/-- Let time pass until something is so. -/
def runUntilWith (stop : Client → Bool) : (ticks : Nat) → Client → Client
  | 0, w => w
  | ticks + 1, w =>
    if stop w then w
    else match w.nextDue with
      | some due => runUntilWith stop ticks (w.tickTo due).settle
      | none => w

/-- Let time pass until something is so; everything due at that instant has happened then. -/
def runUntil (stop : Client → Bool) (w : Client) : Client :=
  let w := w.settle
  runUntilWith stop (w.horizon + 1) w

/-! ## Commands from outside -/

/-- Start a command; it runs when its turn comes. -/
def go (w : Client) (c : Command) : TaskId × Client :=
  let (t, w) := w.spawn (.command (.fresh c))
  (t, w.wake t)

/-- Give a command and wait for its reply. -/
def perform (w : Client) (c : Command) : Option Reply × Client :=
  let (t, w) := w.spawn (.command (.fresh c))
  let w := (w.run t).runUntil (·.hasEnded t)
  match w.task? t with
  | some (.ended (.replied r)) => (some r, w)
  | _ => (none, w)

/-- Drop a command where it waits.  One that has ended keeps its reply. -/
def abort (w : Client) (t : TaskId) : Client :=
  match w.task? t with
  | some (.command p) => ((w.dropPoint t p).setTask t (.ended .aborted))
  | _ => w

end TunnelSession.Client
