/-
  What goes on beside a request.

  SEAT.  Who leaves a connection behind empties the slot of the poller in that very turn, and only
  who has made a tunnel fills it again.  So what a request has come to says whether a poller has the
  slot, as long as its ticket is not void (`Client.Seated`): one lemma for each function of a
  connect or a disconnect.

  OTHERS.  A task that is at no operation (`Task.IsVacant`) is a poller, a receiver, a worker
  without a job, or has ended.  If nothing waits in the bridges either, its turn leaves the
  connection alone and it stays at no operation (`Client.Passive`).
-/
import TunnelSession.Proofs.Cadence
import TunnelSession.Proofs.RequestBook

namespace TunnelSession

/-- The task is at no operation. -/
def Task.IsVacant : Task → Prop
  | .command _ | .worker _ (some _) => False
  | .poller _ | .receiver _ | .worker _ none | .ended _ => True

instance : DecidablePred Task.IsVacant
  | .command _ | .worker _ (some _) => inferInstanceAs (Decidable False)
  | .poller _ | .receiver _ | .worker _ none | .ended _ => inferInstanceAs (Decidable True)

/-- Nothing waits in the bridge. -/
def Bridge.IsEmpty (r : Bridge) : Prop := r.triggers.queue = [] ∧ r.jobs = []

instance : DecidablePred Bridge.IsEmpty :=
  fun r => inferInstanceAs (Decidable (r.triggers.queue = [] ∧ r.jobs = []))

namespace Client

open TunnelSession.Core

variable {w w' v : Client} {t u : TaskId} {l : Lifecycle}

/-! ## The seat of the poller -/

/-- A poller that was not told to stop has the slot; it is another task than this one. -/
def Manned (t : TaskId) (w : Client) : Prop :=
  ∃ u p, u ≠ t ∧ w.poller = some u ∧ w.task? u = some (.poller p) ∧ p.cancelled = false ∧
    0 < p.period

/-- Nobody has the slot, and a poller that is started will not end by itself. -/
structure Unmanned (t : TaskId) (w : Client) : Prop where
  poller : w.poller = none
  there : t < w.tasks.length
  period : w.config.telemetryInterval.toNat ≠ 0

/-- Who has the slot when a request got so far. -/
def Seated (t : TaskId) (w : Client) : Progress Lifecycle Settled → Prop
  | .waiting (.queued ..) | .waiting .leaving => True
  | .waiting (.dialing ..) | .waiting (.sampling ..) | .waiting (.hangingUp _) => w.poller = none
  | .done (.ok (some _)) => w.Manned t
  | .done (.ok none) | .done (.error _) => w.poller = none

/-- What leaves the connection alone leaves the slot empty. -/
theorem Unmanned.connKept (h : Unmanned t w) (hl : ConnKept w w') : Unmanned t w' where
  poller := hl.poller.trans h.poller
  there := by
    rw [hl.tasks]
    exact h.there
  period := by
    rw [hl.config]
    exact h.period

theorem Unmanned.update (h : Unmanned t w) (f : Session → Session) : Unmanned t (w.update f) := by
  obtain ⟨more, hu⟩ := update_eq w f
  rw [hu]
  exact ⟨h.poller, h.there, h.period⟩

theorem Unmanned.release (h : Unmanned t w) : Unmanned t w.releaseTransition := by
  obtain ⟨more, hr⟩ := releaseTransition_eq w
  rw [hr]
  exact ⟨h.poller, h.there, h.period⟩

/-- Who leaves the old connection behind empties the slot. -/
theorem unmanned_stopPolling (ht : t < w.tasks.length)
    (hc : w.config.telemetryInterval.toNat ≠ 0) : Unmanned t w.stopPolling := by
  obtain ⟨more, log, hs⟩ := stopPolling_eq w
  rw [hs]
  refine ⟨rfl, ?_, hc⟩
  rw [length_stopIn]
  exact ht

/-- A connect or a disconnect leaves the old connection behind before it calls the backend. -/
theorem unmanned_leave (ht : t < w.tasks.length) (hc : w.config.telemetryInterval.toNat ≠ 0)
    (f : Session → Session) : Unmanned t (w.update f).stopPolling.lowerTunnel := by
  obtain ⟨more, hu⟩ := update_eq w f
  refine (unmanned_stopPolling ?_ ?_).connKept (connKept_lowerTunnel _)
  · rw [hu]
    exact ht
  · rw [hu]
    exact hc

/-- Who has made a tunnel fills the slot. -/
theorem seated_sampled (h : Unmanned t w) (server : Server) :
    Seated t (w.sampled server).1 (w.sampled server).2 := by
  obtain ⟨more, log, hs⟩ := startPolling_eq w w.config.telemetryInterval.toNat
  obtain ⟨rest, hr⟩ := releaseTransition_eq (w.startPolling w.config.telemetryInterval.toNat)
  show Manned t (w.startPolling w.config.telemetryInterval.toNat).releaseTransition
  rw [hr, hs]
  refine ⟨w.tasks.length, ⟨false, w.version, w.config.telemetryInterval.toNat,
    w.now + w.config.telemetryInterval.toNat, none⟩, Nat.ne_of_gt h.there, rfl, ?_, rfl,
    Nat.pos_of_ne_zero h.period⟩
  show (stopIn w.poller (w.tasks ++ [_]))[w.tasks.length]? = _
  rw [h.poller]
  exact List.getElem?_concat_length

/-- The backend has answered: a refusal leaves the slot empty, and a server fills it once the first
look is over. -/
theorem seated_dialed (h : Unmanned t w) (ticket : Nat) (a : Except BackendError Server) :
    Seated t (w.dialed t ticket a).1 (w.dialed t ticket a).2 := by
  cases a with
  | error e => exact ((h.connKept (connKept_say w (.connectFailed e))).update _).release.poller
  | ok server =>
    unfold dialed tunnelMade
    dsimp only
    -- the client when the session knows the tunnel
    generalize hu : ((w.update _).raiseTunnel.say (.connected server)) = u
    have hun : Unmanned t u := by
      rw [← hu]
      exact (h.update _).connKept ((connKept_raiseTunnel _).trans (connKept_say _ _))
    have hf := connKept_fetchStats u t
    rcases hr : u.fetchStats t with ⟨v, call | kept⟩
    · rw [hr] at hf
      exact (hun.connKept hf).poller
    · rw [hr] at hf
      exact seated_sampled (hun.connKept hf) server

/-- A connect leaves the old connection behind and calls the backend. -/
theorem seated_dial (ht : t < w.tasks.length) (hc : w.config.telemetryInterval.toNat ≠ 0)
    (ticket : Nat) (state : ConnectionState) (ask : Ask Server) :
    Seated t (w.dial t ticket state ask).1 (w.dial t ticket state ask).2 := by
  unfold dial
  dsimp only
  -- the client when the old connection is left behind
  generalize hu : (w.update _).stopPolling.lowerTunnel = u
  have hun : Unmanned t u := hu ▸ unmanned_leave ht hc _
  have hl := connKept_startCall u t ask
  rcases hr : u.startCall t ask with ⟨v, call | answer⟩
  · rw [hr] at hl
    exact (hun.connKept hl).poller
  · rw [hr] at hl
    exact seated_dialed (hun.connKept hl) ticket answer

/-- A connect that begins seats its request, whatever it is aimed at, if that says what to ask
for. -/
theorem seated_beginConnect (ht : t < w.tasks.length)
    (hc : w.config.telemetryInterval.toNat ≠ 0) (ticket : Nat) {target : Target}
    (ha : target.ask? w.session.server ≠ none) :
    Seated t (w.beginConnect t ticket target).1 (w.beginConnect t ticket target).2 := by
  cases target with
  | server id => exact seated_dial (w := w.say (.connecting id)) ht hc ticket _ _
  | best => exact seated_dial (w := w.say .quickConnecting) ht hc ticket _ _
  | last =>
    unfold beginConnect
    cases hs : w.session.server with
    | some server => exact seated_dial (w := w.say (.connecting server.id)) ht hc ticket _ _
    | none =>
      rw [hs] at ha
      exact absurd rfl ha

/-- A connect with a valid ticket either waits in line or begins. -/
theorem seated_requestConnect (ht : t < w.tasks.length)
    (hc : w.config.telemetryInterval.toNat ≠ 0) {ticket : Nat} (hv : ¬ ticket < w.epoch)
    {target : Target} (ha : target.ask? w.session.server ≠ none) :
    Seated t (w.requestConnect t target ticket).1 (w.requestConnect t target ticket).2 := by
  unfold requestConnect
  rw [if_neg (show ¬ w.isVoid ticket = true from fun h => hv (of_decide_eq_true h))]
  dsimp only
  split
  · exact seated_beginConnect (w := { w with transition := w.transition.request t }) ht hc ticket ha
  · exact trivial

/-- The backend has answered a disconnect: nobody has the slot, whatever the answer. -/
theorem seated_hungUp (h : Unmanned t w) (a : Except BackendError Unit) :
    Seated t (w.hungUp a).1 (w.hungUp a).2 := by
  cases a with
  | ok _ => exact ((h.update _).connKept (connKept_say _ .disconnected)).release.poller
  | error e => exact ((h.connKept (connKept_say w (.disconnectFailed e))).update _).release.poller

/-- A disconnect waits in line, or leaves the connection behind and calls the backend. -/
theorem seated_queueDisconnect (ht : t < w.tasks.length)
    (hc : w.config.telemetryInterval.toNat ≠ 0) :
    Seated t (w.queueDisconnect t).1 (w.queueDisconnect t).2 := by
  unfold queueDisconnect
  dsimp only
  split
  · unfold beginDisconnect
    dsimp only
    -- the client when the old connection is left behind
    generalize hu : ((Client.say _ _).update _).stopPolling.lowerTunnel = u
    have hun : Unmanned t u := hu ▸ unmanned_leave
      (w := { w with transition := w.transition.request t }.say .disconnecting) ht hc _
    have hl := connKept_startCall u t .disconnect
    rcases hr : u.startCall t .disconnect with ⟨v, call | answer⟩
    · rw [hr] at hl
      exact (hun.connKept hl).poller
    · rw [hr] at hl
      exact seated_hungUp (hun.connKept hl) answer
  · exact trivial

/-- Who has called the backend goes on: with a ticket that is still good, it is seated as before or
as its answer has it. -/
theorem seated_resumeLifecycle (h : Seated t w (.waiting l)) (ht : t < w.tasks.length)
    (hc : w.config.telemetryInterval.toNat ≠ 0) (hl : 1 ≤ l.rank)
    (hv : ∀ k, l.ticket? = some k → ¬ k < w.epoch) :
    Seated t (w.resumeLifecycle t l).1 (w.resumeLifecycle t l).2 := by
  have hvoid : ∀ k, l.ticket? = some k → ¬ w.isVoid k = true :=
    fun k hk hlt => hv k hk (of_decide_eq_true hlt)
  cases l with
  | queued | leaving => exact absurd hl (Nat.not_succ_le_zero 0)
  | dialing ticket call =>
    have hun : Unmanned t w := ⟨h, ht, hc⟩
    have hconn := connKept_resumeCall w t call
    unfold resumeLifecycle
    dsimp only
    rw [if_neg (hvoid ticket rfl)]
    rcases hr : w.resumeCall t call with ⟨v, call' | answer⟩
    · rw [hr] at hconn
      exact (hun.connKept hconn).poller
    · rw [hr] at hconn
      have hun' := hun.connKept hconn
      exact seated_dialed (w := v.delist t) ⟨hun'.poller, hun'.there, hun'.period⟩ ticket answer
  | sampling ticket server call =>
    have hun : Unmanned t w := ⟨h, ht, hc⟩
    have hconn := connKept_resumeStats w t call
    unfold resumeLifecycle
    dsimp only
    rw [if_neg (hvoid ticket rfl)]
    rcases hr : w.resumeStats t call with ⟨v, call' | kept⟩
    · rw [hr] at hconn
      exact (hun.connKept hconn).poller
    · rw [hr] at hconn
      have hun' := hun.connKept hconn
      exact seated_sampled (w := v.delist t) ⟨hun'.poller, hun'.there, hun'.period⟩ server
  | hangingUp call =>
    -- a disconnect has no ticket that could be void
    have hun : Unmanned t w := ⟨h, ht, hc⟩
    have hconn := connKept_resumeCall w t call
    unfold resumeLifecycle
    dsimp only
    rcases hr : w.resumeCall t call with ⟨v, call' | answer⟩
    · rw [hr] at hconn
      exact (hun.connKept hconn).poller
    · rw [hr] at hconn
      exact seated_hungUp (hun.connKept hconn) answer

/-- Who has the slot, and what it is, decide. -/
theorem Seated.congr {p : Progress Lifecycle Settled} (h : Seated t w p)
    (hp : w'.poller = w.poller)
    (hk : ∀ u, u ≠ t → w.poller = some u → w'.task? u = w.task? u) : Seated t w' p := by
  cases p with
  | waiting l =>
    cases l with
    | queued | leaving => exact trivial
    | dialing | sampling | hangingUp => exact hp.trans h
  | done r =>
    rcases r with e | (_ | server)
    · exact hp.trans h
    · exact hp.trans h
    · obtain ⟨u, p, hne, hslot, htask, hgoing⟩ := h
      exact ⟨u, p, hne, hp.trans hslot, (hk u hne hslot).trans htask, hgoing⟩

/-- Who has the slot and was not told to stop polls and drives. -/
theorem Manned.polling (h : Manned t w) : w.isPolling = true ∧ ∃ u, w.IsDriving u := by
  obtain ⟨u, p, -, hslot, htask, hgoing, -⟩ := h
  refine ⟨?_, u, p, htask, hgoing⟩
  have hruns : w.hasEnded u = false := by
    unfold hasEnded
    rw [htask]
    rfl
  unfold isPolling
  rw [hslot]
  show (!w.hasEnded u) = true
  rw [hruns]
  rfl

/-! ## Other tasks -/

/-- No operation is pending: no command and no job is under way, and nothing waits in a bridge. -/
structure Unoccupied (w : Client) : Prop where
  tasks : ∀ k ∈ w.tasks, k.IsVacant
  bridges : ∀ r ∈ w.bridges, r.IsEmpty

/-- No operation is pending, except one of this task. -/
structure Lone (t : TaskId) (w : Client) : Prop where
  tasks : ∀ u k, u ≠ t → w.task? u = some k → k.IsVacant
  bridges : ∀ r ∈ w.bridges, r.IsEmpty

theorem Unoccupied.lone (h : w.Unoccupied) (t : TaskId) : w.Lone t :=
  ⟨fun _ _ _ hk => h.tasks _ (List.mem_of_getElem? hk), h.bridges⟩

/-- A turn of a task that is at no operation. -/
structure Passive (u : TaskId) (w w' : Client) : Prop where
  poller : w'.poller = w.poller
  others : ∀ x, x ≠ u → w'.task? x = w.task? x
  own : ∀ k, w'.task? u = some k → k.IsVacant
  bridges : ∀ r ∈ w'.bridges, r.IsEmpty

/-- Some work, and then the task is written. -/
theorem passive_setTask {k : Task} (hp : v.poller = w.poller) (ht : v.tasks = w.tasks)
    (hb : ∀ r ∈ v.bridges, r.IsEmpty) (hk : k.IsVacant) : Passive u w (v.setTask u k) where
  poller := hp
  others x hx := by
    rw [task?_setTask_of_ne v k hx, task?, ht]
    rfl
  own k' hk' := by
    have hlt : u < (v.setTask u k).tasks.length := (List.getElem?_eq_some_iff.1 hk').1
    rw [show (v.setTask u k).tasks.length = v.tasks.length from List.length_set] at hlt
    rw [task?_setTask v k u hlt, if_pos rfl] at hk'
    cases hk'
    exact hk
  bridges := hb

/-- Nothing comes into a bridge. -/
theorem isEmpty_of_modify {bs : List Bridge} (h : ∀ r ∈ bs, r.IsEmpty) (b : BridgeId)
    {f : Bridge → Bridge} (hf : ∀ r, r.IsEmpty → (f r).IsEmpty) :
    ∀ r ∈ bs.modify b f, r.IsEmpty := by
  intro r hr
  obtain ⟨i, hi⟩ := List.mem_iff_getElem?.1 hr
  rw [List.getElem?_modify] at hi
  cases hx : bs[i]? with
  | none =>
    rw [hx] at hi
    cases hi
  | some x =>
    rw [hx] at hi
    have hempty := h x (List.mem_of_getElem? hx)
    replace hi : some (if b = i then f x else x) = some r := hi
    split at hi
    · cases hi
      exact hf x hempty
    · cases hi
      exact hempty

/-- A receiver that ends leaves everybody else alone, and the bridges without triggers. -/
theorem passive_endReceiver (hb : ∀ r ∈ w.bridges, r.IsEmpty) (b : BridgeId) (bridge : Bridge) :
    Passive u w (w.endReceiver u b bridge) := by
  have hl := connKept_wakeWorker (w.setBridge b fun r =>
    { r with triggers := { r.triggers.close with queue := [] }, hasReceiver := false }) bridge
  refine passive_setTask hl.poller hl.tasks ?_ trivial
  rw [hl.bridges]
  exact isEmpty_of_modify hb b fun r hr => ⟨rfl, hr.2⟩

/-- A receiver without triggers waits or ends. It takes nothing and hands nothing over, so no bridge
gets a job. -/
theorem passive_runReceiver (hb : ∀ r ∈ w.bridges, r.IsEmpty) {b : BridgeId}
    (hk : w.task? u = some (.receiver b)) : Passive u w (w.runReceiver u b) := by
  unfold runReceiver
  cases hr : w.bridge? b with
  | none => exact passive_setTask rfl rfl hb trivial
  | some bridge =>
    dsimp only
    split
    · exact passive_endReceiver hb b bridge
    · rw [(hb bridge (List.mem_of_getElem? hr)).1, List.foldl_nil]
      -- the client when the triggers are taken
      generalize hv : w.setBridge b _ = v
      have hempty : ∀ r ∈ v.bridges, r.IsEmpty := by
        rw [← hv]
        exact isEmpty_of_modify hb b fun r hr => ⟨rfl, hr.2⟩
      have hsame : v.poller = w.poller ∧ v.tasks = w.tasks := hv ▸ ⟨rfl, rfl⟩
      split
      · have htask : v.task? u = some (.receiver b) := by
          rw [task?, hsame.2]
          exact hk
        have h := passive_setTask (u := u) (k := .receiver b) hsame.1 hsame.2 hempty trivial
        rwa [setTask_self htask] at h
      · have h := passive_endReceiver (u := u) (w := v.say .triggersClosed) hempty b bridge
        refine ⟨h.poller.trans hsame.1, fun x hx => (h.others x hx).trans ?_, h.own, h.bridges⟩
        show v.tasks[x]? = _
        rw [hsame.2]
        rfl

theorem jobCount_eq_zero (hb : ∀ r ∈ w.bridges, r.IsEmpty) (b : BridgeId) : w.jobCount b = 0 := by
  unfold jobCount
  cases hr : w.bridge? b with
  | none => rfl
  | some bridge => exact congrArg List.length (hb bridge (List.mem_of_getElem? hr)).2

/-- A worker without jobs waits or ends. -/
theorem passive_runWorker (hb : ∀ r ∈ w.bridges, r.IsEmpty) (b : BridgeId) :
    Passive u w (w.runWorker u b none) := by
  show Passive u w (carryOut u b (w.jobCount b) w)
  rw [jobCount_eq_zero hb]
  unfold carryOut
  cases w.bridge? b with
  | none => exact passive_setTask rfl rfl hb trivial
  | some bridge =>
    dsimp only
    split
    · exact passive_setTask rfl rfl hb trivial
    · exact passive_setTask rfl rfl hb trivial

/-- A poller looks at the statistics, or ends. -/
theorem passive_runPoller (hs : w.core.Sound) (hb : ∀ r ∈ w.bridges, r.IsEmpty) {p : Poller}
    (hk : w.task? u = some (.poller p)) : Passive u w (w.poll u) := by
  obtain ⟨p', v, k, -, hl, hw, hlead, -⟩ := (watch_poll hs hk).2.turn
  rw [show w.poll u = v.setTask u k from hw]
  refine passive_setTask hl.poller hl.tasks ?_ ?_
  · rw [hl.bridges]
    exact hb
  · cases k with
    | poller | ended => exact trivial
    | command | receiver | worker => exact absurd hlead id

/-- Who is at no operation stays so, and leaves the others alone, one case for each kind of task
that can be at none. -/
theorem passive_poll (hs : w.core.Sound) (hb : ∀ r ∈ w.bridges, r.IsEmpty)
    (hv : ∀ k, w.task? u = some k → k.IsVacant) : Passive u w (w.poll u) := by
  have hrun : w.poll u = ({ w with ready := w.ready.erase u } : Client).run u := rfl
  unfold run at hrun
  rw [show ({ w with ready := w.ready.erase u } : Client).task? u = w.task? u from rfl] at hrun
  cases hk : w.task? u with
  | none =>
    rw [hk] at hrun
    rw [hrun]
    exact ⟨rfl, fun _ _ => rfl, fun k h => hv k h, hb⟩
  | some k =>
    rw [hk] at hrun
    cases k with
    | command => exact absurd (hv _ hk) id
    -- the only one of them that may still have something to do
    | poller p => exact passive_runPoller hs hb hk
    | receiver b =>
      have h := passive_runReceiver (w := { w with ready := w.ready.erase u }) hb hk
      rw [hrun]
      exact ⟨h.poller, h.others, h.own, h.bridges⟩
    | worker b current =>
      cases current with
      | some => exact absurd (hv _ hk) id
      | none =>
        have h := passive_runWorker (w := { w with ready := w.ready.erase u }) (u := u) hb b
        rw [hrun]
        exact ⟨h.poller, h.others, h.own, h.bridges⟩
    | ended how =>
      rw [hrun]
      exact ⟨rfl, fun _ _ => rfl, fun k h => hv k h, hb⟩

/-- The turn of a task that is at no operation leaves no trace: no request is made in it, and none
is worked on. -/
theorem acts_poll_eq_nil (hb : ∀ r ∈ w.bridges, r.IsEmpty)
    (hv : ∀ k, w.task? u = some k → k.IsVacant) : w.acts (.poll u) = [] := by
  show Client.turnActs { w with ready := w.ready.erase u } u = []
  unfold turnActs
  rw [show ({ w with ready := w.ready.erase u } : Client).task? u = w.task? u from rfl]
  cases hk : w.task? u with
  | none => rfl
  | some k =>
    cases k with
    | command => exact absurd (hv _ hk) id
    | poller | ended => rfl
    | receiver b =>
      -- no triggers wait, so it hands over no jobs
      show Client.receiverActs _ b = []
      unfold receiverActs
      cases hr : ({ w with ready := w.ready.erase u } : Client).bridge? b with
      | none => rfl
      | some bridge =>
        dsimp only
        rw [(hb bridge (List.mem_of_getElem? hr)).1]
        split <;> rfl
    | worker b current =>
      -- no jobs wait, so it begins none
      cases current with
      | some => exact absurd (hv _ hk) id
      | none =>
        show jobsActs u b (w.jobCount b) _ = []
        rw [jobCount_eq_zero hb]
        unfold jobsActs
        cases ({ w with ready := w.ready.erase u } : Client).bridge? b <;> rfl

/-- The turn leaves the connection alone. -/
theorem undisturbed_poll (hs : w.core.Sound) (hb : ∀ r ∈ w.bridges, r.IsEmpty)
    (hv : ∀ k, w.task? u = some k → k.IsVacant) : Undisturbed w.core (w.poll u).core :=
  (steps_run (w := { w with ready := w.ready.erase u }) hs u).undisturbed (acts_poll_eq_nil hb hv)

end Client

end TunnelSession
