/-
  What a run is made of.

  STEPS.  A poll is a sequence of steps, and a step is one of a few things: something that leaves
  the connection alone (`Aside`), a turn of a task that has nothing to do with it, a trigger taken,
  or a stretch of work on a request.  `Step` carries the acts it adds to the trace.

  OUTSIDE.  The other events are one change each (`Outside`).

  INVARIANTS.  `invariant_after` is the one induction over runs: a property of trace and core that
  every step and every outside change keeps holds throughout.  Its proof is in `Simulation`.
-/
import TunnelSession.Proofs.Lifecycle
import TunnelSession.Proofs.Trace

namespace TunnelSession

/-- What a request of a trigger connects to, if it connects. -/
def Request.target? : Request → Option Target
  | .quickConnect => some .best
  | .connect id => some (.server id)
  | .disconnect => none

/-- Where the work on a job starts. -/
def Job.start (job : Job) : Core.Start :=
  match job.request.target? with
  | some target => .connect target job.ticket
  | none => .disconnect

/-- The task of a call that got so far with its connect or disconnect. -/
def callTask (starts : Bool) : Progress Lifecycle Settled → Task
  | .waiting l => .command (if starts then .starting l else .lifecycle l)
  | .done s =>
    .ended (.replied (if starts then Client.startedReply s else Client.settledReply s))

/-- The task of a worker that got so far with a job. -/
def jobTask (b : BridgeId) (job : Job) : Progress Lifecycle Settled → Task
  | .waiting l => .worker b (some (job, l))
  | .done _ => .worker b none

/-- Does the command end with a connect of its own accord? -/
def Point.starts : Point → Bool
  | .fresh .start | .loading true _ | .starting _ => true
  | _ => false

/-- What a command may ask for when it runs next. -/
def Point.asks? : Point → Option Target
  | .fresh (.connect id) => some (.server id)
  | .fresh .quickConnect | .fresh .start | .loading true _ => some .best
  | .fresh .reconnect => some .last
  | _ => none

/-- Turns of tasks that have nothing to do with the connection. -/
inductive Task.Turns : Task → Task → Prop
  | wait {p p' : Point} (h : (Task.command p).lifecycle? = none)
    (h' : (Task.command p').lifecycle? = none) (hs : p'.starts = p.starts) :
    Turns (.command p) (.command p')
  | reply {p : Point} (h : (Task.command p).lifecycle? = none) (r : Reply) :
    Turns (.command p) (.ended (.replied r))
  | receiver (b : BridgeId) : Turns (.receiver b) (.ended .finished)
  | worker (b : BridgeId) : Turns (.worker b none) (.ended .finished)

/-- The bridges have the same workers with the same jobs. -/
def SameJobs (bs bs' : List Bridge) : Prop :=
  ∀ b : BridgeId, (bs'[b]?).map (fun r : Bridge => (r.worker, r.jobs)) =
    (bs[b]?).map (fun r : Bridge => (r.worker, r.jobs))

namespace Core

/-- Changes that leave the connection alone. -/
inductive Aside (c : Core) : Core → Prop
  | look {c' : Core} (h : Look c c') : Aside c c'
  | called (op : Operation) (h : op.isLifecycle = false) :
    Aside c { c with backend := c.backend.count op }
  | answered {α : Type} (ask : Ask α) (h : ask.operation.isLifecycle = false) :
    Aside c { c with backend := (c.backend.answer c.now ask).2 }
  | settings (s : Settings) :
    Aside c ({ c with killSwitch := c.killSwitch.setEnabled s.killSwitch }.edit
      fun v => { v with settings := s })
  | autoConnect (value : Bool) :
    Aside c (c.edit fun v => { v with settings := { v.settings with autoConnect := value } })
  | catalog (l : List Server) : Aside c (c.edit fun v => { v with catalog := l })
  | favorites (f : Text.NameSet) : Aside c (c.edit fun v => { v with favorites := f })
  | writes (l : Lock) : Aside c { c with writes := l }
  | looking {t : TaskId} {call : Option (Call Stats)} (ho : c.entry t = none) (ht : t < c.size)
    (hr : ∀ k, call = some k → k.Runs .stats) :
    Aside c { c with looking := Function.update c.looking t call }
  | bridge (bs : List Bridge) (h : SameJobs c.bridges bs) : Aside c { c with bridges := bs }

/-- A stretch of work, as the trace has it. -/
def leg (c c' : Core) (s : Source) (start : Option Lifecycle) (p : Progress Lifecycle Settled) :
    Leg :=
  ⟨s, start, c.session, c.backend, c'.session, c'.backend, p⟩

/-- A job is handed to the worker of a bridge. -/
def handOver (c : Core) (b : BridgeId) (job : Job) : Core :=
  { c with bridges := c.bridges.modify b fun r => { r with jobs := r.jobs ++ [job] } }

/-- The worker of a bridge takes a job, and leaves the rest. -/
def takeJob (c : Core) (b : BridgeId) (rest : List Job) : Core :=
  { c with bridges := c.bridges.modify b fun r => { r with jobs := rest } }

/-- A step of a run, with the acts it adds to the trace. -/
inductive Step (c : Core) : List Act → Core → Prop
  | aside {c' : Core} (h : Aside c c') : Step c [] c'
  | turn {t : TaskId} {old task : Task} (ho : c.entry t = some old) (h : old.Turns task)
    (hs : task.Sound) : Step c [] (c.write t task)
  | retire {t : TaskId} (ho : c.entry t = none) (ht : t < c.size) :
    Step c [] { c.write t (.ended .finished) with
      looking := Function.update c.looking t none }
  /-- The receiver of a bridge takes a trigger that connects. -/
  | takeAsk {b : BridgeId} {bridge : Bridge} {request : Request} {target : Target}
    (hb : c.bridges[b]? = some bridge) (hr : request.target? = some target) :
    Step c [.ask (.bridge b) target] (c.handOver b ⟨request, c.epoch⟩)
  /-- The receiver of a bridge takes a trigger that disconnects. -/
  | takeLeave {b : BridgeId} {bridge : Bridge} (hb : c.bridges[b]? = some bridge) :
    Step c [.leave (.bridge b)]
      ({ c with epoch := c.epoch + 1 }.handOver b ⟨.disconnect, c.epoch⟩)
  /-- A call asks for a connect. -/
  | ask {t : TaskId} {point : Point} {target : Target} {p : Progress Lifecycle Settled}
    {c' : Core} (ho : c.entry t = some (.command point)) (ha : point.asks? = some target)
    (hs : Stretch t c (.connect target c.epoch) p c') :
    Step c [.ask (.call t) target, .leg (c.leg c' (.call t) none p)]
      (c'.write t (callTask point.starts p))
  /-- A call asks for a disconnect. -/
  | leave {t : TaskId} {p : Progress Lifecycle Settled} {c' : Core}
    (ho : c.entry t = some (.command (.fresh .disconnect)))
    (hs : Stretch t { c with epoch := c.epoch + 1 } .disconnect p c') :
    Step c [.leave (.call t), .leg (c.leg c' (.call t) none p)] (c'.write t (callTask false p))
  /-- A call goes on with a connect or a disconnect. -/
  | resume {t : TaskId} {l : Lifecycle} {p : Progress Lifecycle Settled} {c' : Core}
    (starts : Bool) (ho : c.entry t = some (callTask starts (.waiting l)))
    (hs : Stretch t c (.resume l) p c') :
    Step c [.leg (c.leg c' (.call t) (some l) p)] (c'.write t (callTask starts p))
  /-- A worker begins a job. -/
  | begin {t : TaskId} {b : BridgeId} {bridge : Bridge} {job : Job} {rest : List Job}
    {p : Progress Lifecycle Settled} {c' : Core} (ho : c.entry t = some (.worker b none))
    (hb : c.bridges[b]? = some bridge) (hj : bridge.jobs = job :: rest)
    (hs : Stretch t (c.takeJob b rest) job.start p c') :
    Step c [.leg (c.leg c' (.bridge b) none p)] (c'.write t (jobTask b job p))
  /-- A worker goes on with a job. -/
  | carry {t : TaskId} {b : BridgeId} {job : Job} {l : Lifecycle}
    {p : Progress Lifecycle Settled} {c' : Core}
    (ho : c.entry t = some (.worker b (some (job, l))))
    (hs : Stretch t c (.resume l) p c') :
    Step c [.leg (c.leg c' (.bridge b) (some l) p)] (c'.write t (jobTask b job p))

/-- Changes that leave the connection alone, one after the other. -/
abbrev Quiet : Core → Core → Prop := Relation.ReflTransGen Aside

/-- Steps, one after the other. -/
inductive Steps : Core → List Act → Core → Prop
  | refl (c : Core) : Steps c [] c
  | head {c c₁ c' : Core} {acts more : List Act} (h : Step c acts c₁) (hs : Steps c₁ more c') :
    Steps c (acts ++ more) c'

/-- One step is a run of steps, with the acts of that step. -/
theorem Step.single {c c' : Core} {acts : List Act} (h : Step c acts c') : Steps c acts c' := by
  have hs := Steps.head h (.refl c')
  rwa [List.append_nil] at hs

/-- Steps follow each other, and so do their acts. -/
theorem Steps.trans {c c₁ c' : Core} {acts more : List Act} (h : Steps c acts c₁)
    (hs : Steps c₁ more c') : Steps c (acts ++ more) c' := by
  induction h with
  | refl => exact hs
  | head h _ ih =>
    rw [List.append_assoc]
    exact .head h (ih hs)

/-- What leaves the connection alone adds nothing to the trace. -/
theorem Quiet.steps {c c' : Core} (h : Quiet c c') : Steps c [] c' := by
  induction h with
  | refl => exact .refl c
  | tail _ h ih => exact ih.trans (Step.aside h).single

/-- Looks at the statistics leave the connection alone. -/
theorem Looks.quiet {c c' : Core} (h : Looks c c') : Quiet c c' := by
  induction h with
  | refl => exact .refl
  | tail _ h ih => exact ih.tail (.look h)

/-- No task is written aside: entries are written where a turn ends. -/
theorem Aside.entry_eq {c c' : Core} (h : Aside c c') : c'.entry = c.entry := by
  cases h with
  | look h => cases h <;> rfl
  | _ => rfl

theorem Aside.stage_eq {c c' : Core} (h : Aside c c') : c'.stage = c.stage := by
  cases h with
  | look h => cases h <;> rfl
  | _ => rfl

theorem Aside.size_eq {c c' : Core} (h : Aside c c') : c'.size = c.size := by
  cases h with
  | look h => cases h <;> rfl
  | _ => rfl

theorem Aside.epoch_eq {c c' : Core} (h : Aside c c') : c'.epoch = c.epoch := by
  cases h with
  | look h => cases h <;> rfl
  | _ => rfl

theorem Quiet.entry_eq {c c' : Core} (h : Quiet c c') : c'.entry = c.entry := by
  induction h with
  | refl => rfl
  | tail _ h ih => exact h.entry_eq.trans ih

theorem Quiet.size_eq {c c' : Core} (h : Quiet c c') : c'.size = c.size := by
  induction h with
  | refl => rfl
  | tail _ h ih => exact h.size_eq.trans ih

/-- A command is there, and was not polled yet. -/
def spawnCall (c : Core) (command : Command) : Core :=
  { c with size := c.size + 1 }.write c.size (.command (.fresh command))

/-- A bridge is there with its worker and its receiver, and was given nothing yet. -/
def openBridge (c : Core) (bridge : Bridge) : Core :=
  ({ c with
    size := c.size + 2
    bridges := c.bridges ++ [bridge] }.write c.size (.worker c.bridges.length none)).write
      (c.size + 1) (.receiver c.bridges.length)

/-- Opening a bridge adds two tasks behind all others, which stay where they are. -/
theorem entry_openBridge {c : Core} {bridge : Bridge} {u : TaskId} (hu : u < c.size) :
    (c.openBridge bridge).entry u = c.entry u := by
  show Function.update (Function.update c.entry c.size _) (c.size + 1) _ u = _
  rw [Function.update_of_ne (Nat.ne_of_lt (Nat.lt_succ_of_lt hu)),
    Function.update_of_ne (Nat.ne_of_lt hu)]

/-- A task that has not ended is written; who has ended stays so. -/
theorem entry_write_ended {c : Core} {t : TaskId} {task : Task}
    (ho : ∀ how, c.entry t ≠ some (.ended how)) {u : TaskId} {how : Ending}
    (hu : c.entry u = some (.ended how)) : (c.write t task).entry u = some (.ended how) := by
  have hne : u ≠ t := by
    rintro rfl
    exact ho how hu
  rw [show (c.write t task).entry u = c.entry u from Function.update_of_ne hne _ _]
  exact hu

/-- What the other events do. -/
inductive Outside (c : Core) : Event → Core → Prop
  | call (command : Command) : Outside c (.call command) (c.spawnCall command)
  | go (command : Command) : Outside c (.go command) (c.spawnCall command)
  | pass (ms : Nat) : Outside c (.pass ms) { c with now := c.now + ms }
  | fail (op : Operation) (e : BackendError) :
    Outside c (.fail op e) { c with backend := c.backend.failNext op e }
  | pin (op : Operation) (value : Bool) :
    Outside c (.pin op value) { c with backend := c.backend.pin op value }
  | startPolling (period : Nat) : Outside c (.startPolling period) { c with size := c.size + 1 }
  | stopPolling : Outside c .stopPolling c
  | openBridge {bridge : Bridge} (hw : bridge.worker = c.size) (hj : bridge.jobs = []) :
    Outside c .openBridge (c.openBridge bridge)
  | bridge {e : Event} (bs : List Bridge) (h : SameJobs c.bridges bs) :
    Outside c e { c with bridges := bs }

/-- No task that is there is written from outside. -/
theorem Outside.entry_eq {c c' : Core} {e : Event} (h : Outside c e c') {u : TaskId}
    (hu : u < c.size) : c'.entry u = c.entry u := by
  cases h with
  | call | go => exact Function.update_of_ne (Nat.ne_of_lt hu) _ _
  | openBridge => exact entry_openBridge hu
  | _ => rfl

end Core

end TunnelSession
