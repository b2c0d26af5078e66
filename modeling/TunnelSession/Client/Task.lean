/-
  What the tasks of a client are doing.

  A task runs until it has to wait, so between two runs it stands at one of a few points: in line
  for a lock, in a call to the backend, or waiting for triggers.  The types of this module say
  which, with all that the task needs to go on.

  TICKETS.  Every connect carries the number of the disconnects before it (its ticket).  A later
  disconnect makes the ticket void.
-/
import TunnelSession.Backend
import TunnelSession.Client.Lock
import TunnelSession.Session

namespace TunnelSession

/-- How far a run got: it waits, or it is through. -/
inductive Progress (σ ρ : Type) where
  | waiting (point : σ)
  | done (result : ρ)

/-- A call to the backend: it runs, or its answer is held back. -/
inductive Call (α : Type) where
  | running (ask : Ask α) (due : Nat) (hold : Nat)
  | held (due : Nat) (answer : Except BackendError α)

/-- When the call goes on. -/
def Call.due {α : Type} : Call α → Nat
  | .running _ due _ => due
  | .held due _ => due

/-- How much longer a call takes, with what its answer will be held back for. -/
def Call.rest {α : Type} (now : Nat) : Call α → Nat
  | .running _ due hold => due - now + hold
  | .held due _ => due - now

/-! ## Requests on the connection -/

/-- What a connect aims at. -/
inductive Target where
  | server (id : String)
  | best
  | last
  deriving DecidableEq, Repr

/-- Where a connect or a disconnect is. -/
inductive Lifecycle where
  /-- A connect in line for the connection. -/
  | queued (target : Target) (ticket : Nat)
  /-- A connect waiting for the backend. -/
  | dialing (ticket : Nat) (call : Call Server)
  /-- A connect that is through and waits for the first statistics. -/
  | sampling (ticket : Nat) (server : Server) (call : Call Stats)
  /-- A disconnect in line for the connection. -/
  | leaving
  /-- A disconnect waiting for the backend. -/
  | hangingUp (call : Call Unit)

/-- How much longer the call takes that a connect or a disconnect waits for. -/
def Lifecycle.rest (now : Nat) : Lifecycle → Nat
  | .queued .. | .leaving => 0
  | .dialing _ call => call.rest now
  | .sampling _ _ call => call.rest now
  | .hangingUp call => call.rest now

/-- What a connect (a server) or a disconnect (none) comes to. -/
abbrev Settled := Except SessionError (Option Server)

/-! ## Requests on the settings -/

/-- A change of the settings. -/
inductive Write where
  | patch (p : Patch)
  | toggle (flag : Flag)

/-- Where a change of the settings is. -/
inductive Writing where
  | queued (write : Write)
  | saving (merged : Settings) (call : Call Unit)
  | toggling (flag : Flag) (requested : Bool) (call : Call Bool)

/-- How much longer the call takes that a change waits for. -/
def Writing.rest (now : Nat) : Writing → Nat
  | .queued _ => 0
  | .saving _ call => call.rest now
  | .toggling _ _ call => call.rest now

/-! ## Commands -/

/-- What a client can be told. -/
inductive Command where
  | connect (id : String)
  | quickConnect
  | reconnect
  | disconnect
  | start
  | write (w : Write)
  | fetchServers
  | fetchStats
  | version
  | toggleFavorite (id : String)
  | isFavorite (id : String)
  | find (id : String)
  | favorites
  | recents
  | catalog
  | settings
  | status
  | snapshot
  /-- A command that could not be understood. -/
  | reject (e : SessionError)

/-- What a command answers. -/
inductive Reply where
  | connected (server : Server)
  | disconnected
  | started (server : Option Server)
  | saved (settings : Settings)
  | toggled (value : Bool)
  | failed (e : SessionError)
  | truth (b : Bool)
  | text (s : String)
  | server (s : Option Server)
  | servers (l : List Server)
  | settings (s : Settings)
  | session (s : Session)

/-- Where a command is. -/
inductive Point where
  | fresh (command : Command)
  | lifecycle (l : Lifecycle)
  /-- The connect that a start ends with. -/
  | starting (l : Lifecycle)
  | loading (starts : Bool) (call : Call (List Server))
  | writing (w : Writing)
  | sampling (call : Call Stats)
  | asking (call : Call String)

/-- How much longer the call takes that a command waits for. -/
def Point.rest (now : Nat) : Point → Nat
  | .fresh _ => 0
  | .lifecycle l | .starting l => l.rest now
  | .loading _ call => call.rest now
  | .writing w => w.rest now
  | .sampling call => call.rest now
  | .asking call => call.rest now

/-! ## Tasks -/

/-- The number of a bridge. -/
abbrev BridgeId := Nat

/-- A poller of statistics: whether it was told to stop, the last publication it saw, and its
period; then when the next look is due, or the look that is under way. -/
structure Poller where
  cancelled : Bool
  seen : Nat
  period : Nat
  due : Nat
  call : Option (Call Stats)

/-- A request that a trigger made, with the ticket it got on arrival. -/
structure Job where
  request : Request
  ticket : Nat
  deriving DecidableEq, Repr

/-- How a task ended. -/
inductive Ending where
  | replied (r : Reply)
  | aborted
  | finished

/-- A task. -/
inductive Task where
  | command (p : Point)
  | poller (p : Poller)
  | receiver (bridge : BridgeId)
  | worker (bridge : BridgeId) (current : Option (Job × Lifecycle))
  | ended (how : Ending)

/-- Has the task ended? -/
def Task.isEnded : Task → Bool
  | .ended _ => true
  | _ => false

/-- How much longer the call takes that a task waits for. -/
def Task.rest (now : Nat) : Task → Nat
  | .command p => p.rest now
  | .poller p => (p.call.map (·.rest now)).getD 0
  | .receiver _ | .ended _ => 0
  | .worker _ current => (current.map (·.2.rest now)).getD 0

end TunnelSession
