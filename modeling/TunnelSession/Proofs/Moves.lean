/-
  How a request moves.

  MOVES.  Whatever a task does for a connect or a disconnect is a sequence of moves of its stage:
  it dials, its tunnel is made, it looks at the statistics, it hangs up (`Move`), and in the end
  it settles (`Settle`).  A call without latency makes the same moves as one with latency; it only
  makes them in one turn.  So a fact about the connection needs a look at every move, and none at
  the program.

  WAITING.  A request stays where it is only if it cannot go on (`Core.Waits`): it is not the
  holder, or its call takes longer.  A void ticket is never waited with.

  LEGS.  `Travel` is a sequence of moves up to a wait or a result, `Stretch` one with its beginning.
-/
import TunnelSession.Proofs.Core

namespace TunnelSession

/-- Is the operation one of a connect or a disconnect? -/
def Operation.isLifecycle : Operation → Bool
  | .connect | .disconnect | .quickConnect => true
  | _ => false

/-- What a connect asks of the backend, and the state while it waits; nothing if it has no server
to go back to. -/
def Session.aim (s : Session) : Target → Option (ConnectionState × Ask Server)
  | .server id => some (.connecting, .connect id)
  | .best => some (.connecting, .quickConnect)
  | .last => s.server.map fun server => (.reconnecting, .connect server.id)

/-- The session when the old connection is left behind. -/
def Session.depart (s : Session) (state : ConnectionState) : Session :=
  { s with state := state, stats := none }

/-- The session when a tunnel is up. -/
def Session.arrive (s : Session) (server : Server) : Session :=
  { s with state := .connected, recents := s.recents.push server.id, server := some server }

/-- The session when the backend refused. -/
def Session.fault (s : Session) : Session := { s with state := .error }

/-- The session when the tunnel is down. -/
def Session.close (s : Session) : Session :=
  { s with state := .disconnected, server := none, stats := none }

/-- What a connect comes to that has nothing to go back to. -/
def noServer : SessionError := .backend (.validation "no server to reconnect to")

namespace Core

/-- A look at the statistics, step by step. -/
inductive Look (c : Core) : Core → Prop
  | counted : Look c { c with backend := c.backend.count .getStats }
  | answered : Look c { c with backend := (c.backend.answer c.now .stats).2 }
  | kept (stats : Stats) (h : c.session.state = .connected) :
    Look c (c.edit fun s => { s with stats := some stats })

/-- A task joins those who ask for the connection. -/
def enter (c : Core) (t : TaskId) (l : Lifecycle) : Core :=
  { c with transition := c.transition.request t }.put t (some l)

/-- A task gives the connection back. -/
def exit (c : Core) (t : TaskId) : Core :=
  { c with transition := c.transition.release }.put t none

/-- When a call that starts now goes on. -/
def due (c : Core) : Nat := c.now + c.backend.latency

/-- Can the task not go on yet? -/
def Waits (c : Core) (t : TaskId) : Lifecycle → Prop
  | .queued _ ticket => ¬ ticket < c.epoch ∧ c.transition.holder ≠ some t
  | .dialing ticket call => ¬ ticket < c.epoch ∧ c.now < call.due
  | .sampling ticket _ call => ¬ ticket < c.epoch ∧ c.now < call.due
  | .leaving => c.transition.holder ≠ some t
  | .hangingUp call => c.now < call.due

/-- A move of a request that does not settle it. -/
inductive Move (t : TaskId) (c : Core) : Core → Prop
  | dial {target : Target} {ticket : Nat} {state : ConnectionState} {ask : Ask Server}
    (hs : c.stage t = some (.queued target ticket)) (hv : ¬ ticket < c.epoch)
    (hh : c.transition.holder = some t) (ha : c.session.aim target = some (state, ask)) :
    Move t c (({ c with
      killSwitch := c.killSwitch.tunnelLowered
      backend := c.backend.count ask.operation }.edit (·.depart state)).put t
        (some (.dialing ticket (.running ask c.due 0))))
  | connect {ticket : Nat} {ask : Ask Server} {due : Nat} {server : Server} {b : Backend}
    (hs : c.stage t = some (.dialing ticket (.running ask due 0))) (hd : due ≤ c.now)
    (hv : ¬ ticket < c.epoch) (ha : c.backend.answer c.now ask = (.ok server, b)) :
    Move t c (({ c with
      killSwitch := c.killSwitch.tunnelRaised
      backend := b }.edit (·.arrive server)).put t
        (some (.sampling ticket server (.running .stats c.due 0))))
  | look {ticket : Nat} {server : Server} {call : Call Stats} {c' : Core}
    (hs : c.stage t = some (.sampling ticket server call)) (h : Look c c') : Move t c c'
  | hangUp (hs : c.stage t = some .leaving) (hh : c.transition.holder = some t) :
    Move t c (({ c with
      killSwitch := c.killSwitch.tunnelLowered
      backend := c.backend.count .disconnect }.edit (·.depart .disconnecting)).put t
        (some (.hangingUp (.running .disconnect c.due 0))))

/-- A move that settles a request. -/
inductive Settle (t : TaskId) (c : Core) : Settled → Core → Prop
  | drop {target : Target} {ticket : Nat} (hs : c.stage t = some (.queued target ticket))
    (hv : ticket < c.epoch) :
    Settle t c (.error .cancelled)
      ({ c with transition := c.transition.withdraw t }.put t none)
  | noServer {ticket : Nat} (hs : c.stage t = some (.queued .last ticket))
    (hv : ¬ ticket < c.epoch) (hh : c.transition.holder = some t)
    (hn : c.session.server = none) : Settle t c (.error noServer) (c.exit t)
  | abort {ticket : Nat} {call : Call Server} (hs : c.stage t = some (.dialing ticket call))
    (hv : ticket < c.epoch) : Settle t c (.error .cancelled) (c.exit t)
  | refuse {ticket : Nat} {ask : Ask Server} {due : Nat} {e : BackendError} {b : Backend}
    (hs : c.stage t = some (.dialing ticket (.running ask due 0))) (hd : due ≤ c.now)
    (hv : ¬ ticket < c.epoch) (ha : c.backend.answer c.now ask = (.error e, b)) :
    Settle t c (.error (.backend e)) (({ c with backend := b }.edit (·.fault)).exit t)
  | arrive {ticket : Nat} {server : Server} {call : Call Stats} (pollers : Nat)
    (hs : c.stage t = some (.sampling ticket server call)) :
    Settle t c (.ok (some server)) ({ c with size := c.size + pollers }.exit t)
  | close {due : Nat} {b : Backend}
    (hs : c.stage t = some (.hangingUp (.running .disconnect due 0))) (hd : due ≤ c.now)
    (ha : c.backend.answer c.now .disconnect = (.ok (), b)) :
    Settle t c (.ok none) (({ c with backend := b }.edit (·.close)).exit t)
  | fail {due : Nat} {e : BackendError} {b : Backend}
    (hs : c.stage t = some (.hangingUp (.running .disconnect due 0))) (hd : due ≤ c.now)
    (ha : c.backend.answer c.now .disconnect = (.error e, b)) :
    Settle t c (.error (.backend e)) (({ c with backend := b }.edit (·.fault)).exit t)

/-- Moves of a request up to where it waits or to what it comes to. -/
inductive Travel (t : TaskId) : Core → Progress Lifecycle Settled → Core → Prop
  | stay {c : Core} {l : Lifecycle} (hs : c.stage t = some l) (hw : c.Waits t l) :
    Travel t c (.waiting l) c
  | settle {c c' : Core} {s : Settled} (h : Settle t c s c') : Travel t c (.done s) c'
  | move {c c₁ c' : Core} {p : Progress Lifecycle Settled} (h : Move t c c₁)
    (ht : Travel t c₁ p c') : Travel t c p c'

/-- From where a stretch of work starts. -/
inductive Start where
  | connect (target : Target) (ticket : Nat)
  | disconnect
  | resume (l : Lifecycle)

/-- A stretch of work on a request. -/
inductive Stretch (t : TaskId) (c : Core) : Start → Progress Lifecycle Settled → Core → Prop
  | refuse {target : Target} {ticket : Nat} (hs : c.stage t = none) (hv : ticket < c.epoch) :
    Stretch t c (.connect target ticket) (.done (.error .cancelled)) c
  | connect {target : Target} {ticket : Nat} {p : Progress Lifecycle Settled} {c' : Core}
    (hs : c.stage t = none) (hv : ¬ ticket < c.epoch)
    (ht : Travel t (c.enter t (.queued target ticket)) p c') :
    Stretch t c (.connect target ticket) p c'
  | disconnect {p : Progress Lifecycle Settled} {c' : Core} (hs : c.stage t = none)
    (ht : Travel t (c.enter t .leaving) p c') : Stretch t c .disconnect p c'
  | resume {l : Lifecycle} {p : Progress Lifecycle Settled} {c' : Core}
    (hs : c.stage t = some l) (ht : Travel t c p c') : Stretch t c (.resume l) p c'

end Core

end TunnelSession
