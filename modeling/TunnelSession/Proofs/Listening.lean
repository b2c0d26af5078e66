/-
  A bridge within an instant.

  TRIGGERS.  The tasks of an open bridge wait for triggers (`Client.Attends`).  A trigger gives a
  turn to the receiver, then one to the worker if there is a job, and then to pollers only; so what
  the trigger asks for is done, and all wait again, before anything else happens
  (`Listens.trigger`).

  OPENING AND CLOSING.  The two tasks of a new bridge find nothing to do.  When a bridge is closed,
  the receiver ends in its turn, and then the worker, who has no job left.  Neither touches the
  connection.
-/
import TunnelSession.Proofs.RestedCommands

namespace TunnelSession

/-- A trigger was sent. -/
def Outlook.meet (servers : List Server) (o : Outlook) (e : Trigger) : Outlook :=
  match e.request? with
  | some r => o.obey servers r
  | none => o

/-- A bridge that takes triggers, of which none waits, and whose jobs are carried out. -/
structure Bridge.Open (r : Bridge) : Prop where
  hasSender : r.hasSender = true
  going : r.cancelled = false
  hasReceiver : r.hasReceiver = true
  accepts : r.triggers.closed = false
  room : 0 < r.triggers.capacity
  queue : r.triggers.queue = []
  jobs : r.jobs = []

theorem Bridge.Open.pages {r : Bridge} (h : r.Open) (pages : List String) :
    Bridge.Open { r with pages := pages } :=
  ⟨h.hasSender, h.going, h.hasReceiver, h.accepts, h.room, h.queue, h.jobs⟩

namespace Client

variable {w w' v x : Client} {t u : TaskId} {b : BridgeId} {r : Bridge} {n : Nat} {o : Outlook}
  {rest : List TaskId}

/-! ## The tasks of a bridge -/

/-- The tasks of the bridge wait for triggers. -/
structure Attends (b : BridgeId) (r : Bridge) (w : Client) : Prop where
  bridge : w.bridge? b = some r
  receiver : w.core.entry r.receiver = some (.receiver b)
  worker : w.core.entry r.worker = some (.worker b none)
  opened : r.Open

/-- Brief work leaves the tasks of a bridge waiting. -/
theorem Brief.attends (h : Brief n w w') (ha : Attends b r w) : Attends b r w' where
  bridge := (congrArg (·[b]?) h.bridges).trans ha.bridge
  receiver := h.entry _ _ ha.receiver
  worker := h.entry _ _ ha.worker
  opened := ha.opened

theorem bridge?_setBridge (h : w.bridge? b = some r) (f : Bridge → Bridge) :
    (w.setBridge b f).bridge? b = some (f r) := by
  show (w.bridges.modify b f)[b]? = _
  rw [List.getElem?_modify_eq, show w.bridges[b]? = some r from h]
  rfl

/-- To change a bridge twice is to change it once by both. -/
theorem setBridge_setBridge (w : Client) (b : BridgeId) (f g : Bridge → Bridge) :
    (w.setBridge b f).setBridge b g = w.setBridge b (g ∘ f) := by
  show ({ w with bridges := (w.bridges.modify b f).modify b g } : Client) = _
  rw [List.modify_modify_eq]
  rfl

/-- To change nothing of a bridge changes nothing. -/
theorem setBridge_self (h : w.bridge? b = some r) {f : Bridge → Bridge} (hf : f r = r) :
    w.setBridge b f = w := by
  have hself : w.bridges.modify b f = w.bridges := by
    rw [List.modify_eq_set_getElem?, show w.bridges[b]? = some r from h]
    show w.bridges.set b (f r) = w.bridges
    obtain ⟨hlt, hget⟩ := List.getElem?_eq_some_iff.1 h
    rw [hf, ← hget, List.set_getElem_self]
  unfold setBridge
  rw [hself]

/-- Who is woken comes behind those who are ready. -/
theorem wake_of_notMem {k : Task} (h : w.core.entry t = some k) (hk : k.isEnded = false)
    (hn : t ∉ w.ready) : w.wake t = { w with ready := w.ready ++ [t] } := by
  unfold wake
  rw [hasEnded_of_entry h, hk]
  exact if_neg (by simpa using hn)

/-- Who is woken when nobody is ready. -/
theorem wake_of_entry {k : Task} (h : w.core.entry t = some k) (hk : k.isEnded = false)
    (hr : w.ready = []) : w.wake t = { w with ready := [t] } := by
  rw [wake_of_notMem h hk (by rw [hr]; exact List.not_mem_nil), hr]
  rfl

theorem turn_of_ready (hr : w.ready = []) (t : TaskId) :
    ({ w with ready := [t] } : Client).turn = w.run t := by
  show ({ w with ready := [] } : Client).run t = w.run t
  rw [← hr]

theorem settleWith_succ (n : Nat) (hr : w.ready = t :: rest) :
    settleWith (n + 1) w = settleWith n w.turn := by
  show ite (w.ready.isEmpty = true) _ _ = _
  rw [hr]
  rfl

theorem settleWith_of_nil (n : Nat) (hr : w.ready = []) : settleWith n w = w := by
  cases n with
  | zero => rfl
  | succ n =>
    show ite (w.ready.isEmpty = true) _ _ = _
    rw [hr]
    rfl

/-- After two turns there are turns for all tasks left, and for one more. -/
theorem settle_of_turns {more : List TaskId} (hr : w.ready = t :: rest) (hv : w.turn = v)
    (hm : v.ready = u :: more) (hx : v.turn = x) :
    ∃ n, w.live + 1 ≤ n ∧ w.settle = settleWith n x := by
  have hlive := live_le_load w
  obtain ⟨n, hn⟩ : ∃ n, w.budget = n + 2 :=
    ⟨_, (Nat.sub_add_cancel (by unfold budget; omega)).symm⟩
  refine ⟨n, by unfold budget at hn; omega, ?_⟩
  unfold settle
  rw [hn, settleWith_succ _ hr, hv, settleWith_succ _ hm, hx]

/-! ## A trigger -/

/-- A trigger waits for the receiver. -/
def offered (w : Client) (b : BridgeId) (r : Bridge) (e : Trigger) : Client :=
  { w.setBridge b fun r' => { r' with triggers := { r.triggers with queue := [e] } } with
    ready := [r.receiver] }

/-- A job waits for the worker. -/
def handed (w : Client) (b : BridgeId) (r : Bridge) (job : Job) : Client :=
  { w.setBridge b fun r' => { r' with jobs := r'.jobs ++ [job] } with ready := [r.worker] }

/-- A trigger is taken in, and the receiver is woken for it. -/
theorem Attends.offerTrigger (h : Attends b r w) (hr : w.ready = []) (e : Trigger) :
    w.offerTrigger b e = (.sent, w.offered b r e) := by
  have hoffer : r.triggers.offer e = (.sent, { r.triggers with queue := [e] }) := by
    have hopen : ¬ r.triggers.closed = true := Bool.eq_false_iff.1 h.opened.accepts
    have hroom : r.triggers.queue.length < r.triggers.capacity := h.opened.queue ▸ h.opened.room
    unfold Channel.offer
    rw [if_neg hopen, if_pos hroom, h.opened.queue]
    rfl
  unfold Client.offerTrigger
  rw [h.bridge]
  dsimp only
  rw [hoffer]
  dsimp only
  rw [wake_of_entry (w := w.setBridge b _) h.receiver rfl hr]
  rfl

/-- The receiver takes a trigger. -/
theorem Attends.turn_offered (h : Attends b r w) (hr : w.ready = []) (e : Trigger) :
    (w.offered b r e).turn =
      w.receive b { r with triggers := { r.triggers with queue := [e] } } e := by
  -- the queue is empty again when the receiver comes to the trigger
  have hback : (w.setBridge b fun r' => { r' with
      triggers := { r.triggers with queue := [e] } }).setBridge b (fun r' => { r' with
      triggers := { r'.triggers with queue := [] } }) = w := by
    rw [setBridge_setBridge]
    refine setBridge_self h.bridge ?_
    show ({ r with triggers := { r.triggers with queue := [] } } : Bridge) = r
    rw [← h.opened.queue]
  unfold offered
  rw [turn_of_ready (w := w.setBridge b _) hr]
  unfold run
  rw [show (w.setBridge b _).task? r.receiver = some (.receiver b) from task?_of_entry h.receiver]
  dsimp only
  unfold runReceiver
  rw [bridge?_setBridge h.bridge]
  dsimp only
  rw [h.opened.going, hback, h.opened.hasSender]
  rfl

theorem wakeWorker_of_entry (h : w.core.entry r.worker = some (.worker b none))
    (hr : w.ready = []) : w.wakeWorker r = { w with ready := [r.worker] } := by
  unfold wakeWorker
  rw [task?_of_entry h]
  exact wake_of_entry h rfl hr

/-- A job is handed over, and the worker is the next to have a turn. -/
theorem Attends.handOver (h : Attends b r w) (hr : w.ready = []) {r' : Bridge}
    (hw : r'.worker = r.worker) (job : Job) : w.handOver b r' job = w.handed b r job := by
  unfold Client.handOver handed
  rw [wakeWorker_of_entry (w := w.setBridge b _) (r := r') (hw ▸ h.worker) hr, hw]

theorem reportJob_eq (w : Client) (request : Request) (s : Settled) :
    ∃ log, w.reportJob request s = { w with log := log } := by
  unfold reportJob
  split <;> exact ⟨_, rfl⟩

/-- A worker without jobs waits on. -/
theorem Attends.carryOut (h : Attends b r w) (n : Nat) : carryOut r.worker b n w = w := by
  unfold Client.carryOut
  rw [h.bridge]
  dsimp only
  rw [h.opened.jobs, h.opened.hasReceiver]
  cases n <;> exact setTask_self (task?_of_entry h.worker)

/-- The worker carries out a job. There is no latency, so the job is through in this turn, and no
other one waits behind it. -/
theorem Attends.turn_handed (h : Attends b r w) (hr : w.ready = []) {job : Job} {s : Settled}
    (hb : Brief n w (w.beginJob r.worker job).1) (hs : (w.beginJob r.worker job).2 = .done s) :
    (w.handed b r job).turn = (w.beginJob r.worker job).1.reportJob job.request s := by
  -- no job is left when the worker begins this one
  have hback : (w.setBridge b fun r' => { r' with jobs := r'.jobs ++ [job] }).setBridge b
      (fun r' => { r' with jobs := [] }) = w := by
    rw [setBridge_setBridge]
    refine setBridge_self h.bridge ?_
    show ({ r with jobs := [] } : Bridge) = r
    rw [← h.opened.jobs]
  have hbridge := bridge?_setBridge h.bridge fun r' => { r' with jobs := r'.jobs ++ [job] }
  rw [h.opened.jobs] at hbridge
  have hafter : Attends b r ((w.beginJob r.worker job).1.reportJob job.request s) := by
    obtain ⟨log, hlog⟩ := reportJob_eq (w.beginJob r.worker job).1 job.request s
    rw [hlog]
    exact (hb.andThen (harmless_log _ log).toBrief).attends h
  unfold handed
  rw [turn_of_ready (w := w.setBridge b _) hr]
  unfold run
  rw [show (w.setBridge b _).task? r.worker = some (.worker b none) from task?_of_entry h.worker]
  dsimp only
  unfold runWorker jobCount
  rw [hbridge]
  show Client.carryOut _ _ 1 _ = _
  unfold Client.carryOut
  rw [hbridge]
  dsimp only [List.nil_append]
  rw [hback]
  generalize w.beginJob r.worker job = q at hs hafter
  obtain ⟨v, p⟩ := q
  cases hs
  exact hafter.carryOut 0

/-- A trigger that asks for something becomes a job with a ticket that counts: no disconnect can
come between. -/
theorem Attends.receive (h : Attends b r w) (hw : w.Rested) {e : Trigger} {request : Request}
    (he : e.request? = some request) (r' : Bridge) (hr : r'.worker = r.worker) :
    ∃ x job, w.receive b r' e = x.handed b r job ∧ job.request = request ∧
      (job.request = .disconnect ∨ job.ticket = x.epoch) ∧ Harmless 0 w x ∧ x.Rested := by
  have hsaid : Harmless 0 w (w.say (.triggered e)) := (brief_say w _).harmless rfl rfl rfl
  cases e with
  | navigate => cases he
  | quickConnect =>
    cases he
    exact ⟨_, _, (hsaid.attends h).handOver hw.ready hr _, rfl, .inr rfl, hsaid, hw.say _⟩
  | connect id =>
    cases he
    exact ⟨_, _, (hsaid.attends h).handOver hw.ready hr _, rfl, .inr rfl, hsaid, hw.say _⟩
  | disconnect =>
    -- nobody waits with a ticket, so there is nobody to cancel
    cases he
    have hvoid := (hw.say (.triggered .disconnect)).instant.cancelConnects
    have hx : Harmless 0 w (w.say (.triggered .disconnect)).cancelConnects := by
      rw [hvoid]
      exact (brief_with w _ _ _ _ _ _ _ id id).harmless rfl rfl rfl
    have hready : (w.say (.triggered .disconnect)).cancelConnects.Rested :=
      ⟨hx.instant hw.instant, by rw [hvoid]; exact hw.ready, by rw [hvoid]; exact hw.free⟩
    exact ⟨_, _, (hx.attends h).handOver hready.ready hr _, rfl, .inl rfl, hx, hready⟩

/-- The client of a daemon between two lines. -/
structure Listens (b : BridgeId) (o : Outlook) (w : Client) : Prop where
  rested : w.Rested
  servers : w.backend.servers = Server.defaults
  displays : w.Displays o
  attends : ∃ r, Attends b r w

/-- The receiver and the worker have their turns, and then the pollers. -/
theorem Attends.settle_request (h : Attends b r w) (hw : w.Rested) (hs : w.Displays o) {e : Trigger}
    {request : Request} (he : e.request? = some request) :
    Brief 1 w (w.offered b r e).settle ∧ (w.offered b r e).settle.Rested ∧
      (w.offered b r e).settle.Displays (o.obey w.backend.servers request) := by
  obtain ⟨x, job, hx, hrequest, hticket, hwx, hxr⟩ := h.receive hw he
    { r with triggers := { r.triggers with queue := [e] } } rfl
  obtain ⟨hb, hfree, hso, s, hdone⟩ :=
    hxr.instant.settles_beginJob (hwx.displays _ hs) hxr.free r.worker hticket
  obtain ⟨log, hlog⟩ := reportJob_eq (x.beginJob r.worker job).1 job.request s
  have hall := (hb.before hwx.toBrief).andThen (harmless_log _ log).toBrief
  obtain ⟨n, hle, hsettle⟩ :=
    settle_of_turns (w := w.offered b r e) rfl ((h.turn_offered hw.ready e).trans hx) rfl
      (((hwx.attends h).turn_handed hxr.ready hb hdone).trans hlog)
  have hi := hall.instant hw.instant
  -- the job started one poller at most, so the turns that are left are enough
  have hdrain := hi.drain (Nat.le_trans hi.length_ready_le (Nat.le_trans hall.live hle))
  rw [← hsettle] at hdrain
  rw [← hrequest, ← hwx.servers]
  exact ⟨hall.andThen hdrain.toBrief, hdrain.rested hi hfree,
    hdrain.displays _ ((harmless_log _ log).displays _ hso)⟩

theorem Instant.setBridge (h : w.Instant) (b : BridgeId) (f : Bridge → Bridge) :
    (w.setBridge b f).Instant :=
  ⟨h.latency, h.prompt, h.able, h.period, h.published, h.waits, h.timed, h.alone, h.line, h.nodup,
    h.roused⟩

/-- The bridge changes in what its tasks do not look at. -/
theorem Listens.setBridge (h : Listens b o w) {f : Bridge → Bridge}
    (hf : ∀ r : Bridge, r.Open →
      (f r).Open ∧ (f r).receiver = r.receiver ∧ (f r).worker = r.worker) :
    Listens b o (w.setBridge b f) := by
  obtain ⟨r, ha⟩ := h.attends
  obtain ⟨hopen, hreceiver, hworker⟩ := hf r ha.opened
  refine ⟨⟨h.rested.instant.setBridge b f, h.rested.ready, h.rested.free⟩, h.servers,
    h.displays.congr rfl rfl, f r, bridge?_setBridge ha.bridge f, ?_, ?_, hopen⟩
  · rw [hreceiver]
    exact ha.receiver
  · rw [hworker]
    exact ha.worker

theorem Listens.log (h : Listens b o w) (log : List Notice) :
    Listens b o { w with log := log } := by
  obtain ⟨r, ha⟩ := h.attends
  exact ⟨h.rested.log log, h.servers, (harmless_log w log).displays o h.displays, r,
    (harmless_log w log).attends ha⟩

theorem Listens.restsAgain {o' : Outlook} (h : Listens b o w) (he : RestsAgain w o' v) :
    Listens b o' v := by
  obtain ⟨r, ha⟩ := h.attends
  exact ⟨he.rested, he.brief.servers.trans h.servers, he.displays, r, he.brief.attends ha⟩

/-- A trigger has its effect before the next line, and then the bridge listens again: receiver,
worker and poller have their turns in between. -/
theorem Listens.trigger (h : Listens b o w) (e : Trigger) :
    ∃ v, w.offerTrigger b e = (.sent, v) ∧ Listens b (o.meet Server.defaults e) v.settle := by
  obtain ⟨r, ha⟩ := h.attends
  refine ⟨_, ha.offerTrigger h.rested.ready e, ?_⟩
  unfold Outlook.meet
  cases he : e.request? with
  | some request =>
    -- it becomes a job, which is carried out
    obtain ⟨hb, hrested, hs⟩ := ha.settle_request h.rested h.displays he
    rw [h.servers] at hs
    exact ⟨hrested, hb.servers.trans h.servers, hs, r, hb.attends ha⟩
  | none =>
    -- it asks for a page, which is put aside
    obtain ⟨path, rfl⟩ : ∃ path, e = .navigate path := by
      cases e with
      | navigate path => exact ⟨path, rfl⟩
      | quickConnect | connect | disconnect => cases he
    have hsaid : Listens b o (w.say (.triggered (.navigate path))) := h.log _
    have htaken : Listens b o (w.receive b
        { r with triggers := { r.triggers with queue := [.navigate path] } } (.navigate path)) := by
      unfold Client.receive
      dsimp only
      split
      · exact hsaid.setBridge fun r hr => ⟨hr.pages _, rfl, rfl⟩
      · exact hsaid.log _
    unfold settle budget
    rw [Nat.mul_succ, settleWith_succ (w := w.offered b r _) _ rfl, ha.turn_offered h.rested.ready,
      settleWith_of_nil _ htaken.rested.ready]
    exact htaken

/-! ## A bridge is opened and closed -/

theorem Attends.run_worker (h : Attends b r w) : w.run r.worker = w := by
  unfold run
  rw [task?_of_entry h.worker]
  exact h.carryOut _

/-- A receiver without triggers waits on. -/
theorem Attends.run_receiver (h : Attends b r w) : w.run r.receiver = w := by
  unfold run
  rw [task?_of_entry h.receiver]
  dsimp only
  unfold runReceiver
  rw [h.bridge]
  dsimp only
  rw [h.opened.going, h.opened.hasSender, h.opened.queue, setBridge_self h.bridge]
  · rfl
  · rw [← h.opened.queue]

/-- The client whose next bridge is open, and whose tasks have had their turns. -/
def opened (w : Client) : Client :=
  { ((w.spawn (.worker w.bridges.length none)).2.spawn (.receiver w.bridges.length)).2 with
    bridges := w.bridges ++ [newBridge w.config.triggerCapacity.toNat w.tasks.length]
    log := .bridgeActivated :: w.log }

theorem Attends.ready (h : Attends b r w) (ready : List TaskId) :
    Attends b r { w with ready := ready } :=
  ⟨h.bridge, h.receiver, h.worker, h.opened⟩

/-- The tasks of a bridge that was just opened wait for triggers. -/
theorem attends_opened (w : Client) :
    Attends w.bridges.length (newBridge w.config.triggerCapacity.toNat w.tasks.length)
      w.opened where
  bridge := by
    show (w.bridges ++ [_])[w.bridges.length]? = _
    simp
  receiver := by
    refine entry_of_task? ?_ rfl
    show ((w.tasks ++ [_]) ++ [_])[w.tasks.length + 1]? = _
    simp
  worker := by
    refine entry_of_task? ?_ rfl
    show ((w.tasks ++ [_]) ++ [_])[w.tasks.length]? = _
    simp
  opened :=
    ⟨rfl, rfl, rfl, rfl, Nat.lt_of_lt_of_le Nat.zero_lt_one (Nat.le_max_right _ _), rfl, rfl⟩

/-- A bridge is opened: its worker and then its receiver are woken, and nobody else is ready. -/
theorem activate_eq (h : w.ready = []) :
    w.activate = (w.bridges.length, { w.opened with
      ready := [w.tasks.length, w.tasks.length + 1] }) := by
  have hself : ∀ (v : Client) (k : Task), k.seen? = some k →
      (v.spawn k).2.core.entry v.tasks.length = some k := fun v k hk =>
    entry_of_task? (by rw [task?_spawn, if_pos rfl]) hk
  unfold activate
  dsimp only
  -- the worker is spawned and woken, and behind it the receiver
  rw [show w.spawn (.worker w.bridges.length none) =
    (w.tasks.length, (w.spawn (.worker w.bridges.length none)).2) from rfl]
  dsimp only
  rw [wake_of_entry (hself w _ rfl) rfl h]
  generalize hv : ({ (w.spawn (.worker w.bridges.length none)).2 with
    ready := [w.tasks.length] } : Client) = v
  have hlen : v.tasks.length = w.tasks.length + 1 := by
    rw [← hv]
    simp [spawn]
  have hnew : v.tasks.length ∉ (v.spawn (.receiver w.bridges.length)).2.ready := by
    rw [hlen, ← hv]
    simp [spawn]
  rw [show v.spawn (.receiver w.bridges.length) =
    (v.tasks.length, (v.spawn (.receiver w.bridges.length)).2) from rfl]
  dsimp only
  rw [wake_of_notMem (hself v _ rfl) rfl hnew, hlen, ← hv]
  simp [spawn, opened, newBridge, Client.say]

/-- Nothing is to be done in a bridge that was just opened. -/
theorem Rested.settle_activate (h : w.Rested) :
    w.activate.1 = w.bridges.length ∧ w.activate.2.settle = w.opened := by
  rw [activate_eq h.ready]
  refine ⟨rfl, ?_⟩
  have hworker : ({ w.opened with ready := [w.tasks.length, w.tasks.length + 1] } : Client).turn =
      { w.opened with ready := [w.tasks.length + 1] } :=
    ((attends_opened w).ready [w.tasks.length + 1]).run_worker
  have hreceiver : ({ w.opened with ready := [w.tasks.length + 1] } : Client).turn =
      { w.opened with ready := [] } :=
    ((attends_opened w).ready []).run_receiver
  obtain ⟨n, -, hsettle⟩ := settle_of_turns rfl hworker rfl hreceiver
  refine (hsettle.trans (settleWith_of_nil n rfl)).trans ?_
  rw [← h.ready]
  rfl

/-- A bridge is opened. -/
theorem Rested.listens_activate (h : w.Rested) (hservers : w.backend.servers = Server.defaults)
    (hs : w.Displays o) : Listens w.activate.1 o w.activate.2.settle := by
  obtain ⟨hid, hsettle⟩ := h.settle_activate
  rw [hid, hsettle]
  have hi := ((brief_spawn w (k := .worker w.bridges.length none) nofun).trans
    (brief_spawn _ (k := .receiver w.bridges.length) nofun)).instant h.instant
  exact ⟨⟨⟨hi.latency, hi.prompt, hi.able, hi.period, hi.published, hi.waits, hi.timed, hi.alone,
    hi.line, hi.nodup, hi.roused⟩, h.ready, h.free⟩, hservers, hs.congr rfl rfl, _,
      attends_opened w⟩

/-- The client whose receiver was told to end. -/
def told (w : Client) (b : BridgeId) : Client := w.setBridge b fun r => { r with cancelled := true }

/-- The client whose receiver has ended. -/
def deaf (w : Client) (b : BridgeId) (r : Bridge) : Client :=
  ((w.told b).setBridge b fun r => { r with
    triggers := { r.triggers.close with queue := [] }
    hasReceiver := false }).setTask r.receiver (.ended .finished)

/-- The two tasks of a bridge are different ones. -/
theorem Attends.receiver_ne_worker (h : Attends b r w) : r.worker ≠ r.receiver := fun he => by
  have hw := h.worker
  rw [he, h.receiver] at hw
  cases hw

theorem Attends.deactivate (h : Attends b r w) (hr : w.ready = []) :
    w.deactivate b = { w.told b with ready := [r.receiver] } := by
  unfold Client.deactivate
  rw [h.bridge]
  exact wake_of_entry (w := w.told b) h.receiver rfl hr

/-- In its turn it ends, and wakes the worker. -/
theorem Attends.run_told (h : Attends b r w) (hr : w.ready = []) :
    (w.told b).run r.receiver = { w.deaf b r with ready := [r.worker] } := by
  have hbridge : (w.told b).bridge? b = some { r with cancelled := true } :=
    bridge?_setBridge h.bridge _
  unfold run
  rw [show (w.told b).task? r.receiver = some (.receiver b) from task?_of_entry h.receiver]
  dsimp only
  unfold runReceiver
  rw [hbridge]
  show endReceiver _ _ _ _ = _
  unfold endReceiver
  dsimp only
  rw [wakeWorker_of_entry (w := (w.told b).setBridge b _) (r := { r with cancelled := true })
    h.worker hr]
  rfl

theorem Attends.bridge?_deaf (h : Attends b r w) : (w.deaf b r).bridge? b = some { r with
    cancelled := true
    triggers := { r.triggers.close with queue := [] }
    hasReceiver := false } :=
  bridge?_setBridge (bridge?_setBridge h.bridge _) _

/-- The worker has no job left, and ends. -/
theorem Attends.run_deaf (h : Attends b r w) :
    (w.deaf b r).run r.worker = (w.deaf b r).setTask r.worker (.ended .finished) := by
  have htask : (w.deaf b r).task? r.worker = some (.worker b none) :=
    (task?_setTask_of_ne _ _ h.receiver_ne_worker).trans (task?_of_entry h.worker)
  unfold run
  rw [htask]
  show Client.carryOut _ _ ((w.deaf b r).jobCount b) _ = _
  generalize (w.deaf b r).jobCount b = n
  unfold Client.carryOut
  rw [h.bridge?_deaf]
  dsimp only
  rw [h.opened.jobs]
  cases n <;> rfl

/-- The receiver ends, and then the worker. -/
theorem Attends.settle_deactivate (h : Attends b r w) (hr : w.ready = []) :
    (w.deactivate b).settle = (w.deaf b r).setTask r.worker (.ended .finished) := by
  have hreceiver : ({ w.told b with ready := [r.receiver] } : Client).turn =
      { w.deaf b r with ready := [r.worker] } :=
    (turn_of_ready (w := w.told b) hr _).trans (h.run_told hr)
  have hworker : ({ w.deaf b r with ready := [r.worker] } : Client).turn =
      (w.deaf b r).setTask r.worker (.ended .finished) :=
    (turn_of_ready (w := w.deaf b r) hr _).trans h.run_deaf
  obtain ⟨n, -, hsettle⟩ := settle_of_turns rfl hreceiver rfl hworker
  rw [h.deactivate hr, hsettle]
  exact settleWith_of_nil n hr

/-- A bridge whose receiver has ended is not active. -/
theorem Attends.isActive_settle (h : Attends b r w) (hr : w.ready = []) :
    (w.deactivate b).settle.isActive b = false := by
  have hended : ((w.deaf b r).setTask r.worker (.ended .finished)).core.entry r.receiver =
      some (.ended .finished) :=
    (entry_setTask_of_ne _ _ h.receiver_ne_worker.symm).trans
      (entry_setTask _ (lt_size_of_entry h.receiver) rfl)
  rw [h.settle_deactivate hr]
  unfold isActive
  rw [show ((w.deaf b r).setTask r.worker (.ended .finished)).bridge? b = _ from h.bridge?_deaf]
  show (!hasEnded _ r.receiver) = false
  rw [hasEnded_of_entry hended]
  rfl

theorem Attends.instant_deaf (h : Attends b r w) (hw : w.Instant) : (w.deaf b r).Instant :=
  ((hw.setBridge b _).setBridge b _).setTask h.receiver _

end Client

end TunnelSession
