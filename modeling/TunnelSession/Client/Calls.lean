/-
  Calls to the backend.

  A call is counted and reported when it starts.  It then takes the latency of the backend, after
  which its answer is made, and what it is held back for, after which the answer is handed over.
  A wait of no time is no wait: a call without latency and hold is through at once.
-/
import TunnelSession.Client.Basic

namespace TunnelSession.Client

variable {α : Type}

/-- A call waits, and its task is woken when it goes on. -/
def await (w : Client) (t : TaskId) (call : Call α) :
    Client × Progress (Call α) (Except BackendError α) :=
  (w.arm call.due t, .waiting call)

/-- The latency is over: make the answer. -/
def answerCall (w : Client) (t : TaskId) (ask : Ask α) (hold : Nat) :
    Client × Progress (Call α) (Except BackendError α) :=
  let (answer, backend) := w.backend.answer w.now ask
  let w := { w with backend := backend }
  if hold = 0 then (w, .done answer) else w.await t (.held (w.now + hold) answer)

/-- Start a call. -/
def startCall (w : Client) (t : TaskId) (ask : Ask α) :
    Client × Progress (Call α) (Except BackendError α) :=
  let op := ask.operation
  let hold := w.backend.hold op
  let w := { w with backend := (w.backend.dropHold op).count op }.say (.called op)
  if w.backend.latency = 0 then w.answerCall t ask hold
  else w.await t (.running ask (w.now + w.backend.latency) hold)

/-- Go on with a call, if it is time. -/
def resumeCall (w : Client) (t : TaskId) (call : Call α) :
    Client × Progress (Call α) (Except BackendError α) :=
  if w.now < call.due then w.await t call
  else match call with
    | .running ask _ hold => w.answerCall t ask hold
    | .held _ answer => (w, .done answer)

end TunnelSession.Client
