/-
  How the state of the connection changes.

  CHANGES.  A `StateChange` is one change of the state: which task makes it, who has the connection
  at that moment, and the states before and after.  A write that leaves the state as it is makes
  none.

  LIST.  There is one function for every function of the client that can change the state, and what
  it lists are the very changes that a turn makes, in order; a turn without latency makes several.

  RECORDS.  A `Record` is an act of the trace with the job that it works on and its changes.  So
  `records` is the trace, told with more detail (`records_map_act`).
-/
import TunnelSession.Proofs.Exclusion
import TunnelSession.Proofs.Trace

namespace TunnelSession

/-- May the state go from the one to the other? -/
def ConnectionState.leads : ConnectionState → ConnectionState → Bool
  | .disconnected, .connecting | .connected, .connecting | .error, .connecting => true
  | .connected, .reconnecting | .error, .reconnecting => true
  | .connecting, .reconnecting | .reconnecting, .connecting => true
  | .connecting, .connected | .reconnecting, .connected => true
  | .connecting, .error | .reconnecting, .error => true
  | .disconnecting, .disconnected | .disconnecting, .error => true
  | .disconnecting, .disconnecting => false
  | _, .disconnecting => true
  | _, _ => false

/-- Is the state that of a connect that waits for the backend? -/
def ConnectionState.isDialing (s : ConnectionState) : Bool :=
  s == .connecting || s == .reconnecting

/-- A change of the state. -/
structure StateChange where
  task : TaskId
  /-- Who has the connection when the state changes. -/
  holder : Option TaskId
  old : ConnectionState
  new : ConnectionState

/-- Changes that take the state from one to another, each from where the one before it left. -/
def StateChange.Chain : ConnectionState → List StateChange → ConnectionState → Prop
  | s, [], s' => s' = s
  | s, x :: xs, s' => x.old = s ∧ Chain x.new xs s'

/-- An act, with the job that it works on and the changes of the state that it makes. -/
structure Record where
  act : Act
  job : Option Job
  changes : List StateChange

/-- An act that changes no state. -/
def Record.plain (act : Act) : Record := ⟨act, none, []⟩

/-- The changes of the state that are told of, in order. -/
def changesIn (ρ : List Record) : List StateChange := ρ.flatMap Record.changes

namespace StateChange

/-- Changes that follow each other lead from the first state to the last. -/
theorem Chain.append {s s₁ s' : ConnectionState} {xs ys : List StateChange} (h : Chain s xs s₁)
    (h' : Chain s₁ ys s') : Chain s (xs ++ ys) s' := by
  induction xs generalizing s with
  | nil =>
    cases h
    exact h'
  | cons x xs ih => exact ⟨h.1, ih h.2⟩

end StateChange

@[simp] theorem changesIn_append (ρ σ : List Record) :
    changesIn (ρ ++ σ) = changesIn ρ ++ changesIn σ := List.flatMap_append

@[simp] theorem changesIn_plain (acts : List Act) : changesIn (acts.map Record.plain) = [] := by
  induction acts with
  | nil => rfl
  | cons _ _ ih => exact ih

@[simp] theorem map_act_plain (acts : List Act) :
    (acts.map Record.plain).map Record.act = acts := by
  rw [List.map_map]
  exact List.map_id _

namespace Client

/-! ## Connects and disconnects -/

/-- The change that a write of the state makes, if it changes it. -/
def changeTo (w : Client) (t : TaskId) (state : ConnectionState) : List StateChange :=
  if w.session.state = state then [] else [⟨t, w.transition.holder, w.session.state, state⟩]

/-- The backend answered a connect. -/
def dialedChanges (w : Client) (t : TaskId) : Except BackendError Server → List StateChange
  | .ok _ => w.changeTo t .connected
  | .error _ => w.changeTo t .error

/-- Dialing, and what follows at once. -/
def dialChanges (w : Client) (t : TaskId) (state : ConnectionState) (ask : Ask Server) :
    List StateChange :=
  w.changeTo t state ++
    let w := w.update fun s => { s with state := state, stats := none }
    match w.stopPolling.lowerTunnel.startCall t ask with
    | (_, .waiting _) => []
    | (w, .done answer) => w.dialedChanges t answer

/-- A connect that holds the connection. -/
def connectChanges (w : Client) (t : TaskId) : Target → List StateChange
  | .server id => (w.say (.connecting id)).dialChanges t .connecting (.connect id)
  | .best => (w.say .quickConnecting).dialChanges t .connecting .quickConnect
  | .last =>
    match w.session.server with
    | some server =>
      (w.say (.connecting server.id)).dialChanges t .reconnecting (.connect server.id)
    | none => []

/-- Asking for a connect. -/
def askChanges (w : Client) (t : TaskId) (target : Target) (ticket : Nat) : List StateChange :=
  if w.isVoid ticket then []
  else
    let w := { w with transition := w.transition.request t }
    if w.transition.isHeldBy t then w.connectChanges t target else []

/-- The backend answered a disconnect. -/
def hungUpChanges (w : Client) (t : TaskId) : Except BackendError Unit → List StateChange
  | .ok () => w.changeTo t .disconnected
  | .error _ => w.changeTo t .error

/-- A disconnect that holds the connection. -/
def hangUpChanges (w : Client) (t : TaskId) : List StateChange :=
  w.changeTo t .disconnecting ++
    let w := (w.say .disconnecting).update fun s =>
      { s with state := .disconnecting, stats := none }
    match w.stopPolling.lowerTunnel.startCall t .disconnect with
    | (_, .waiting _) => []
    | (w, .done answer) => w.hungUpChanges t answer

/-- Asking for a disconnect that cancels nothing by itself. -/
def leaveChanges (w : Client) (t : TaskId) : List StateChange :=
  let w := { w with transition := w.transition.request t }
  if w.transition.isHeldBy t then w.hangUpChanges t else []

/-- Going on with a connect or a disconnect; the first statistics change no state. -/
def lifecycleChanges (w : Client) (t : TaskId) : Lifecycle → List StateChange
  | .queued target ticket =>
    if w.isVoid ticket then []
    else if w.transition.isHeldBy t then (w.delist t).connectChanges t target
    else []
  | .dialing ticket call =>
    if w.isVoid ticket then []
    else match w.resumeCall t call with
      | (_, .waiting _) => []
      | (w, .done answer) => (w.delist t).dialedChanges t answer
  | .sampling .. => []
  | .leaving => if w.transition.isHeldBy t then w.hangUpChanges t else []
  | .hangingUp call =>
    match w.resumeCall t call with
    | (_, .waiting _) => []
    | (w, .done answer) => w.hungUpChanges t answer

/-- Beginning a job. -/
def jobChanges (w : Client) (t : TaskId) (job : Job) : List StateChange :=
  match job.request with
  | .quickConnect => w.askChanges t .best job.ticket
  | .connect id => w.askChanges t (.server id) job.ticket
  | .disconnect => w.leaveChanges t

/-! ## Commands -/

/-- A task asks for a connect. -/
def askRecords (w : Client) (t : TaskId) (target : Target) : List Record :=
  [.plain (.ask (.call t) target),
    ⟨w.leg (.call t) none (w.requestConnect t target w.epoch), none,
      w.askChanges t target w.epoch⟩]

/-- A start asks for a connect when the catalog is there, if the settings say so. -/
def startRecords (t : TaskId)
    (r : Client × Progress (Call (List Server)) (Except BackendError (List Server))) :
    List Record :=
  match r with
  | (_, .waiting _) => []
  | (w, .done answer) =>
    let w := (w.commitCatalog answer).1
    if w.session.settings.autoConnect then (w.say .autoConnecting).askRecords t .best else []

/-- A call goes on with a connect or a disconnect. -/
def resumeRecords (w : Client) (t : TaskId) (l : Lifecycle) : List Record :=
  [⟨w.leg (.call t) (some l) (w.resumeLifecycle t l), none, w.lifecycleChanges t l⟩]

/-- The records of a command. -/
def pointRecords (w : Client) (t : TaskId) : Point → List Record
  | .fresh (.connect id) => w.askRecords t (.server id)
  | .fresh .quickConnect => w.askRecords t .best
  | .fresh .reconnect => w.askRecords t .last
  | .fresh .disconnect =>
    [.plain (.leave (.call t)),
      ⟨w.leg (.call t) none (w.requestDisconnect t), none, w.cancelConnects.leaveChanges t⟩]
  | .fresh .start => startRecords t (w.startCall t .servers)
  | .loading true call => startRecords t (w.resumeCall t call)
  | .lifecycle l => w.resumeRecords t l
  | .starting l => w.resumeRecords t l
  | _ => []

/-! ## Bridges -/

/-- The records of a receiver. -/
def receiverRecords (w : Client) (b : BridgeId) : List Record := (w.receiverActs b).map .plain

/-- The records of carrying out jobs until one has to wait or none is left. -/
def jobsRecords (t : TaskId) (b : BridgeId) : (jobs : Nat) → Client → List Record
  | jobs, w =>
    match w.bridge? b with
    | none => []
    | some bridge =>
      match jobs, bridge.jobs with
      | jobs + 1, job :: rest =>
        let w := w.setBridge b fun r => { r with jobs := rest }
        ⟨w.leg (.bridge b) none (w.beginJob t job), some job, w.jobChanges t job⟩ ::
          match w.beginJob t job with
          | (_, .waiting _) => []
          | (w, .done s) => jobsRecords t b jobs (w.reportJob job.request s)
      | _, _ => []

/-- The records of a worker. -/
def workerRecords (w : Client) (t : TaskId) (b : BridgeId) :
    Option (Job × Lifecycle) → List Record
  | none => jobsRecords t b (w.jobCount b) w
  | some (job, l) =>
    ⟨w.leg (.bridge b) (some l) (w.resumeLifecycle t l), some job, w.lifecycleChanges t l⟩ ::
      match w.resumeLifecycle t l with
      | (_, .waiting _) => []
      | (w, .done s) => jobsRecords t b (w.jobCount b) (w.reportJob job.request s)

/-! ## Runs -/

/-- The records of a turn. -/
def turnRecords (w : Client) (t : TaskId) : List Record :=
  match w.task? t with
  | some (.command p) => w.pointRecords t p
  | some (.receiver b) => w.receiverRecords b
  | some (.worker b current) => w.workerRecords t b current
  | _ => []

/-- The records of an event. -/
def recordsOf (w : Client) : Event → List Record
  | .call c => (w.spawn (.command (.fresh c))).2.turnRecords w.tasks.length
  | .poll t => { w with ready := w.ready.erase t }.turnRecords t
  | _ => []

/-- The records of a run, in order. -/
def records (w : Client) : List Event → List Record
  | [] => []
  | e :: events => w.recordsOf e ++ (w.happen e).records events

/-! ### The acts of the records -/

/-- The records of a start tell of its acts. -/
theorem startRecords_map_act (t : TaskId)
    (r : Client × Progress (Call (List Server)) (Except BackendError (List Server))) :
    (startRecords t r).map Record.act = startActs t r := by
  unfold startRecords startActs
  split
  · rfl
  · dsimp only
    split <;> rfl

/-- The records of a command name the acts of the command, whatever point it has come to. -/
theorem pointRecords_map_act (w : Client) (t : TaskId) (p : Point) :
    (w.pointRecords t p).map Record.act = w.pointActs t p := by
  cases p with
  | fresh command =>
    cases command with
    | start => exact startRecords_map_act t _
    | _ => rfl
  | loading starts call =>
    cases starts with
    | true => exact startRecords_map_act t _
    | false => rfl
  | _ => rfl

/-- The records of the jobs that a worker carries out in one turn name its acts, by induction on how
many jobs there may be. -/
theorem jobsRecords_map_act (t : TaskId) (b : BridgeId) (jobs : Nat) (w : Client) :
    (jobsRecords t b jobs w).map Record.act = jobsActs t b jobs w := by
  induction jobs generalizing w with
  | zero =>
    unfold jobsRecords jobsActs
    cases w.bridge? b <;> rfl
  | succ jobs ih =>
    unfold jobsRecords jobsActs
    cases w.bridge? b with
    | none => rfl
    | some bridge =>
      dsimp only
      cases bridge.jobs with
      | nil => rfl
      | cons job rest =>
        dsimp only
        rw [List.map_cons]
        congr 1
        -- the job waits, or the next one is taken
        rcases Client.beginJob _ t job with ⟨v, l | s⟩
        · rfl
        · exact ih _

theorem workerRecords_map_act (w : Client) (t : TaskId) (b : BridgeId)
    (current : Option (Job × Lifecycle)) :
    (w.workerRecords t b current).map Record.act = w.workerActs t b current := by
  cases current with
  | none => exact jobsRecords_map_act t b _ w
  | some current =>
    unfold workerRecords workerActs
    rw [List.map_cons]
    congr 1
    rcases w.resumeLifecycle t current.2 with ⟨v, l | s⟩
    · rfl
    · exact jobsRecords_map_act t b _ _

/-- The records of a turn name its acts, one by one and in order, so that a fact about the records
of a run is a fact about what happened in it. -/
theorem turnRecords_map_act (w : Client) (t : TaskId) :
    (w.turnRecords t).map Record.act = w.turnActs t := by
  unfold turnRecords turnActs
  cases w.task? t with
  | none => rfl
  | some task =>
    cases task with
    | command p => exact pointRecords_map_act w t p
    | receiver b => exact map_act_plain _
    | worker b current => exact workerRecords_map_act w t b current
    | poller | ended => rfl

theorem recordsOf_map_act (w : Client) (e : Event) :
    (w.recordsOf e).map Record.act = w.acts e := by
  cases e with
  | call | poll => exact turnRecords_map_act _ _
  | _ => rfl

/-- The records of a run tell of the acts of its trace, one by one. -/
theorem records_map_act (w : Client) (events : List Event) :
    (w.records events).map Record.act = w.trace events := by
  induction events generalizing w with
  | nil => rfl
  | cons e events ih => rw [records, trace, List.map_append, recordsOf_map_act, ih]

end Client

/-! ## Which way the state goes -/

/-- Did a connect get its tunnel? -/
def Progress.HasTunnel (p : Progress Lifecycle Settled) : Prop :=
  (∃ ticket server call, p = .waiting (.sampling ticket server call)) ∨
    ∃ server, p = .done (.ok (some server))

/-- All changes settle the state. -/
def StateChange.Settle (σ : List StateChange) : Prop := ∀ x ∈ σ, x.new.isTransitioning = false

/-- What the changes in a stretch of work say of where it got. -/
structure ChangesFit (σ : List StateChange) (p : Progress Lifecycle Settled) : Prop where
  first : StateChange.Settle σ.tail
  up : ∀ x ∈ σ, x.new = .connected → p.HasTunnel

theorem changesFit_nil (p : Progress Lifecycle Settled) : ChangesFit [] p := ⟨nofun, nofun⟩

/-- If every change settles the state, the first one does not come before another that does not. -/
theorem StateChange.Settle.changesFit {σ : List StateChange} {p : Progress Lifecycle Settled}
    (h : StateChange.Settle σ)
    (hu : ∀ x ∈ σ, x.new = .connected → p.HasTunnel) : ChangesFit σ p :=
  ⟨fun x hx => h x (List.mem_of_mem_tail hx), hu⟩

namespace Client

variable {w : Client} {t : TaskId}

/-- A write of the state makes one change at most, to the state that it writes. -/
theorem new_of_mem_changeTo {s : ConnectionState} {x : StateChange} (h : x ∈ w.changeTo t s) :
    x.new = s := by
  unfold changeTo at h
  split at h
  · cases h
  · cases List.mem_singleton.1 h
    rfl

theorem settle_changeTo {s : ConnectionState} (hs : s.isTransitioning = false) :
    StateChange.Settle (w.changeTo t s) := by
  intro x hx
  rw [new_of_mem_changeTo hx]
  exact hs

/-- The answer to a connect settles the state: there is a connection, or an error. -/
theorem settle_dialedChanges (w : Client) (t : TaskId) (a : Except BackendError Server) :
    StateChange.Settle (w.dialedChanges t a) := by
  cases a <;> exact settle_changeTo rfl

theorem settle_hungUpChanges (w : Client) (t : TaskId) (a : Except BackendError Unit) :
    StateChange.Settle (w.hungUpChanges t a) := by
  cases a <;> exact settle_changeTo rfl

/-- A state that is left behind for another, and what settles it. -/
theorem changesFit_changeTo_append {s : ConnectionState} {σ : List StateChange}
    {p : Progress Lifecycle Settled} (hs : s ≠ .connected) (h : StateChange.Settle σ)
    (hu : ∀ x ∈ σ, x.new = .connected → p.HasTunnel) : ChangesFit (w.changeTo t s ++ σ) p := by
  refine ⟨fun x hx => ?_, fun x hx hn => ?_⟩
  · refine h x ?_
    unfold changeTo at hx
    split at hx
    · exact List.mem_of_mem_tail hx
    · exact hx
  · rcases List.mem_append.1 hx with hx | hx
    · exact absurd ((new_of_mem_changeTo hx).symm.trans hn) hs
    · exact hu x hx hn

theorem not_up_hungUpChanges {p : Progress Lifecycle Settled} (w : Client) (t : TaskId)
    (a : Except BackendError Unit) :
    ∀ x ∈ w.hungUpChanges t a, x.new = .connected → p.HasTunnel := by
  intro x hx hn
  cases a <;> cases (new_of_mem_changeTo hx).symm.trans hn

/-- A request that has called the backend settles the state, if it changes it. -/
theorem settle_lifecycleChanges (w : Client) (t : TaskId) {l : Lifecycle} (hl : l.IsActive) :
    StateChange.Settle (w.lifecycleChanges t l) := by
  cases l with
  | queued | leaving => cases hl
  | dialing ticket call =>
    -- a connect that gives up its call changes nothing; else it is the answer that settles
    unfold lifecycleChanges
    dsimp only
    split
    · nofun
    · rcases w.resumeCall t call with ⟨v, call' | a⟩
      · nofun
      · exact settle_dialedChanges _ t a
  | sampling => nofun
  | hangingUp call =>
    unfold lifecycleChanges
    dsimp only
    rcases w.resumeCall t call with ⟨v, call' | a⟩
    · nofun
    · exact settle_hungUpChanges _ t a

/-- A connect that has its tunnel changes no state, and keeps the tunnel. -/
theorem hasTunnel_resumeLifecycle (w : Client) (t : TaskId) (ticket : Nat) (server : Server)
    (call : Call Stats) : (w.resumeLifecycle t (.sampling ticket server call)).2.HasTunnel := by
  unfold resumeLifecycle
  dsimp only
  split
  · exact .inr ⟨_, rfl⟩
  · rcases w.resumeStats t call with ⟨v, call' | kept⟩
    · exact .inl ⟨_, _, _, rfl⟩
    · exact .inr ⟨_, rfl⟩

end Client

end TunnelSession
